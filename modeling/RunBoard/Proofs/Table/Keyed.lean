import RunBoard.Table

namespace RunBoard.Table

variable {α β γ : Type} {key : β → String}

def Keyed (table : Table β) (key : β → String) : Prop :=
  ∀ (own : String) (value : β), table[own]? = some value → key value = own

theorem keyed_ofPairs (items : List α) {own : α → String} {value : α → β}
    (same : ∀ item, key (value item) = own item) :
    Keyed (ofPairs (items.map fun item => (own item, value item))) key := by
  intro field found held
  rw [getElem?_ofPairs] at held
  obtain ⟨pair, listed, rfl⟩ := List.mem_map.mp (List.mem_of_getLast? held)
  obtain ⟨member, here⟩ := List.mem_filter.mp listed
  obtain ⟨item, -, rfl⟩ := List.mem_map.mp member
  exact (same item).trans (eq_of_beq here)

theorem Keyed.nodup_map {table : Table β} (keyed : table.Keyed key) {values : List β}
    (walked : values.Perm table.values) : (values.map key).Nodup := by
  have keys : table.values.map key = table.keys := by
    rw [table.values_eq, List.map_map, ← Std.ExtTreeMap.map_fst_toList_eq_keys]
    apply List.map_congr_left
    rintro ⟨own, value⟩ listed
    exact keyed own value (Std.ExtTreeMap.mem_toList_iff_getElem?_eq_some.mp listed)
  rw [(walked.map key).nodup_iff, keys]
  exact Std.ExtTreeMap.nodup_keys

/-- Values that stand under their own keys are written back to where they stand. -/
theorem Keyed.getElem?_byKey {table : Table β} (keyed : table.Keyed key) (shown : β → Bool)
    (value : β → γ) (field : String) :
    (byKey key value (table.values.filter shown))[field]? =
      (table[field]?.filter shown).map value := by
  have here (held : β) : held ∈ (table.values.filter shown).filter (key · == field) ↔
      table[field]? = some held ∧ shown held = true := by
    rw [List.mem_filter, List.mem_filter, mem_values_iff, beq_iff_eq]
    constructor
    · rintro ⟨⟨⟨own, found⟩, shows⟩, rfl⟩
      rw [keyed own held found]
      exact ⟨found, shows⟩
    · rintro ⟨found, shows⟩
      exact ⟨⟨⟨field, found⟩, shows⟩, keyed field held found⟩
  have last : ((table.values.filter shown).filter (key · == field)).getLast? =
      table[field]?.filter shown := by
    apply Option.ext
    intro held
    rw [Option.filter_eq_some_iff, ← here]
    constructor
    · exact List.mem_of_getLast?
    · intro member
      have ends := List.getLast?_eq_some_getLast (List.ne_nil_of_mem member)
      have found := ((here _).mp (List.mem_of_getLast? ends)).1
      rw [ends, ← found, ((here held).mp member).1]
  rw [byKey, getElem?_ofPairs, List.filter_map, List.map_map, ← last, ← List.getLast?_map]
  rfl

def PartsKeyed (table : Table (Table β)) (key : β → String) : Prop :=
  ∀ (owner own : String) (value : β), table.lookIn owner own = some value → key value = own

namespace PartsKeyed

variable {table : Table (Table β)}

theorem empty : PartsKeyed (∅ : Table (Table β)) key := by
  intro owner own value held
  simp [lookIn] at held

theorem part (keyed : table.PartsKeyed key) (owner : String) :
    Keyed (table[owner]?.getD ∅) key := by
  intro own value held
  rw [getElem?_part] at held
  exact keyed owner own value held

theorem insert (keyed : table.PartsKeyed key) (owner : String) {part : Table β}
    (entries : part.Keyed key) : PartsKeyed (table.insert owner part) key := by
  intro other own value held
  rw [lookIn_insert] at held
  split at held
  · exact entries own value held
  · exact keyed other own value held

theorem erase (keyed : table.PartsKeyed key) (owner : String) :
    PartsKeyed (table.erase owner) key := by
  intro other own value held
  rw [lookIn_erase] at held
  split at held
  · contradiction
  · exact keyed other own value held

theorem putIn (keyed : table.PartsKeyed key) (owner : String) (value : β) :
    PartsKeyed (table.putIn owner (key value) value) key := by
  intro other own found held
  rw [lookIn_putIn] at held
  split at held
  · rename_i here
    rw [← Option.some.inj held]
    exact here.2
  · exact keyed other own found held

theorem dropFrom (keyed : table.PartsKeyed key) (owner field : String) :
    PartsKeyed (table.dropFrom owner field) key := by
  intro other own value held
  rw [lookIn_dropFrom] at held
  split at held
  · contradiction
  · exact keyed other own value held

theorem ofPairs {pairs : List (String × Table β)} (entries : ∀ pair ∈ pairs, pair.2.Keyed key) :
    PartsKeyed (Table.ofPairs pairs) key := by
  intro owner own value held
  obtain ⟨part, found, here⟩ := Option.bind_eq_some_iff.mp held
  rw [getElem?_ofPairs] at found
  obtain ⟨pair, member, rfl⟩ := List.mem_map.mp (List.mem_of_getLast? found)
  exact entries pair (List.mem_filter.mp member).1 own value here

end PartsKeyed

end RunBoard.Table
