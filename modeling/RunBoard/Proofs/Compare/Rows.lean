import RunBoard.Compare.Rows

namespace RunBoard.Compare

variable {β : Type}

theorem sortKeys_perm (keys : List String) : (sortKeys keys).Perm keys := by
  unfold sortKeys
  split
  · exact List.mergeSort_perm keys numericLe
  · exact List.mergeSort_perm keys textLe

theorem nodup_allKeys (tables : List (Table β)) : (allKeys tables).Nodup :=
  Std.ExtTreeMap.nodup_keys

theorem mem_insertKeys (union : Table Unit) (table : Table β) (key : String) :
    key ∈ union.insertMany (table.keys.map fun key => (key, ())) ↔ key ∈ union ∨ key ∈ table := by
  rw [Std.ExtTreeMap.mem_insertMany_list, List.map_map, List.contains_iff_mem]
  have keys : table.keys.map (Prod.fst ∘ fun key => (key, ())) = table.keys := List.map_id _
  rw [keys, Std.ExtTreeMap.mem_keys]

theorem mem_allKeys (tables : List (Table β)) (key : String) :
    key ∈ allKeys tables ↔ ∃ table ∈ tables, key ∈ table := by
  have gathered (union : Table Unit) :
      key ∈ tables.foldl
          (fun union table => union.insertMany (table.keys.map fun key => (key, ()))) union ↔
        key ∈ union ∨ ∃ table ∈ tables, key ∈ table := by
    induction tables generalizing union with
    | nil => simp
    | cons table rest ih =>
      rw [List.foldl_cons, ih, mem_insertKeys]
      simp only [List.mem_cons, exists_eq_or_imp, or_assoc]
  rw [allKeys, Std.ExtTreeMap.mem_keys, gathered]
  simp

theorem keys_rows (tables : List (Table String)) :
    (rows tables).map (·.key) = sortKeys (allKeys tables) := by
  rw [rows, List.map_map]
  exact List.map_id _

/-- The rows show `value` for each of the runs, under every key that one of the runs has a value
for. -/
structure Tabulates (rows : List Row) (runs : List String)
    (value : String → String → Option String) : Prop where
  once : (rows.map (·.key)).Nodup
  keys (key : String) : key ∈ rows.map (·.key) ↔ ∃ run ∈ runs, (value run key).isSome = true
  values : ∀ row ∈ rows, row.values = runs.map (value · row.key)

theorem tabulates_rows {runs : List String} {table : String → Table String}
    {value : String → String → Option String}
    (reads : ∀ run key, (table run)[key]? = value run key) :
    Tabulates (rows (runs.map table)) runs value where
  once := by
    rw [keys_rows]
    exact (sortKeys_perm _).nodup_iff.mpr (nodup_allKeys _)
  keys key := by
    rw [keys_rows, (sortKeys_perm _).mem_iff, mem_allKeys]
    constructor
    · rintro ⟨_, member, found⟩
      obtain ⟨run, listed, rfl⟩ := List.mem_map.mp member
      rw [Std.ExtTreeMap.mem_iff_isSome_getElem?, reads] at found
      exact ⟨run, listed, found⟩
    · rintro ⟨run, listed, found⟩
      rw [← reads, ← Std.ExtTreeMap.mem_iff_isSome_getElem?] at found
      exact ⟨table run, List.mem_map_of_mem listed, found⟩
  values row member := by
    obtain ⟨key, _, rfl⟩ := List.mem_map.mp member
    simp only [row, List.map_map]
    apply List.map_congr_left
    intro run _
    exact reads run key

end RunBoard.Compare
