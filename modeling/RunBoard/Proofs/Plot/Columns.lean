import Mathlib.Data.List.Induction
import RunBoard.Plot.Data

namespace RunBoard.Plot.PlotData

variable {β : Type}

def column (key : String) (entries : List (List (String × β))) : List (Option β) :=
  entries.map fun own => (Table.ofPairs own)[key]?

theorem getElem?_write (count index : Nat) (columns : Table (List (Option β)))
    (entry : String × β) (key : String) :
    (write count index columns entry)[key]? =
      if entry.1 = key then
        some ((columns[key]?.getD (List.replicate count none)).set index (some entry.2))
      else columns[key]? := by
  rw [write, Std.ExtTreeMap.getElem?_alter]
  by_cases same : entry.1 = key <;> simp [same]

theorem getElem?_foldl_write (count index : Nat) (own : List (String × β))
    (columns : Table (List (Option β))) (key : String) :
    (own.foldl (write count index) columns)[key]? =
      match (Table.ofPairs own)[key]? with
      | some value => some ((columns[key]?.getD (List.replicate count none)).set index (some value))
      | none => columns[key]? := by
  induction own using List.reverseRecOn with
  | nil => simp [Table.ofPairs]
  | append_singleton earlier entry ih =>
    have grown : Table.ofPairs (earlier ++ [entry]) = (Table.ofPairs earlier).insert entry.1 entry.2 := by
      rw [Table.ofPairs, List.foldl_append]
      rfl
    rw [List.foldl_append, List.foldl_cons, List.foldl_nil, getElem?_write, grown,
      Std.ExtTreeMap.getElem?_insert, ih]
    by_cases same : entry.1 = key
    · cases (Table.ofPairs earlier)[key]? <;> simp [same]
    · simp [same]

/-- What is held under a key while `rest` more runs are to come: nothing, or the values so far and a
blank for each of those. -/
def partialColumn (key : String) (entries : List (List (String × β))) (rest : Nat) :
    Option (List (Option β)) :=
  if (column key entries).all Option.isNone then none
  else some (column key entries ++ List.replicate rest none)

theorem getD_partialColumn (key : String) (entries : List (List (String × β))) (rest : Nat) :
    (partialColumn key entries rest).getD (List.replicate (entries.length + rest) none) =
      column key entries ++ List.replicate rest none := by
  unfold partialColumn
  split
  · rename_i absent
    have bare : column key entries = List.replicate entries.length none := by
      refine List.eq_replicate_iff.mpr ⟨List.length_map _, ?_⟩
      intro value member
      exact Option.isNone_iff_eq_none.mp (List.all_eq_true.mp absent value member)
    rw [bare, List.replicate_append_replicate]
    rfl
  · rfl

theorem getElem?_foldl_zipIdx (entries : List (List (String × β))) (rest : Nat) (key : String) :
    (entries.zipIdx.foldl (fun columns run => run.1.foldl (write (entries.length + rest) run.2) columns)
        ∅)[key]? = partialColumn key entries rest := by
  induction entries using List.reverseRecOn generalizing rest with
  | nil => simp [partialColumn, column]
  | append_singleton earlier own ih =>
    have count : (earlier ++ [own]).length + rest = earlier.length + (rest + 1) := by
      rw [List.length_append, List.length_singleton, Nat.add_assoc, Nat.add_comm 1]
    have grown : column key (earlier ++ [own]) = column key earlier ++ [(Table.ofPairs own)[key]?] :=
      List.map_append
    have width : (column key earlier).length = earlier.length := List.length_map _
    rw [count, List.zipIdx_append, List.foldl_append, Nat.zero_add, List.zipIdx_singleton,
      List.foldl_cons, List.foldl_nil, getElem?_foldl_write, ih]
    cases value : (Table.ofPairs own)[key]? with
    | none =>
      simp only [partialColumn, grown, value, List.all_append]
      simp [List.replicate_succ]
    | some found =>
      rw [getD_partialColumn]
      simp [partialColumn, grown, value, List.replicate_succ, ← width]

theorem getElem?_columns (entries : List (List (String × β))) (key : String) :
    (columns entries)[key]? =
      if (column key entries).all Option.isNone then none else some (column key entries) := by
  have filled := getElem?_foldl_zipIdx entries 0 key
  rw [partialColumn, List.replicate_zero, List.append_nil] at filled
  exact filled

/-- The columns show `value` for each of the runs, under every key that one of the runs has a value
for. -/
structure Charts (columns : Table (List (Option β))) (runs : List String)
    (value : String → String → Option β) : Prop where
  keys (key : String) : key ∈ columns ↔ ∃ run ∈ runs, (value run key).isSome = true
  values {key : String} {column : List (Option β)} :
    columns[key]? = some column → column = runs.map (value · key)

theorem charts_columns {runs : List String} {entries : String → List (String × β)}
    {value : String → String → Option β}
    (reads : ∀ run key, (Table.ofPairs (entries run))[key]? = value run key) :
    Charts (columns (runs.map entries)) runs value := by
  have shown (key : String) : column key (runs.map entries) = runs.map (value · key) := by
    rw [column, List.map_map]
    exact List.map_congr_left fun run _ => reads run key
  constructor
  · intro key
    have absent : (runs.map (value · key)).all Option.isNone = true ↔
        ¬∃ run ∈ runs, (value run key).isSome = true := by simp
    rw [Std.ExtTreeMap.mem_iff_isSome_getElem?, getElem?_columns, shown]
    split
    · rename_i nothing
      exact iff_of_false Bool.false_ne_true (absent.mp nothing)
    · rename_i something
      exact iff_of_true rfl (not_not.mp (mt absent.mpr something))
  · intro key found held
    rw [getElem?_columns, shown] at held
    split at held
    · contradiction
    · exact (Option.some.inj held).symm

theorem Charts.getD {columns : Table (List (Option β))} {runs : List String}
    {value : String → String → Option β} (charts : Charts columns runs value) (key : String) :
    columns[key]?.getD (runs.map fun _ => none) = runs.map (value · key) := by
  cases held : columns[key]? with
  | some column => exact charts.values held
  | none =>
    apply List.map_congr_left
    intro run listed
    cases found : value run key with
    | none => rfl
    | some shown =>
      have member := (charts.keys key).mpr ⟨run, listed, by rw [found]; rfl⟩
      rw [Std.ExtTreeMap.mem_iff_isSome_getElem?, held] at member
      contradiction

end RunBoard.Plot.PlotData
