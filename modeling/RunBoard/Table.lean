import Std.Data.ExtTreeMap

namespace RunBoard

abbrev Table (β : Type) := Std.ExtTreeMap String β

namespace Table

variable {β : Type}

instance [DecidableEq β] : DecidableEq (Table β) := fun a b =>
  decidable_of_iff (a.toList = b.toList) Std.ExtTreeMap.toList_inj

def ofPairs (pairs : List (String × β)) : Table β :=
  pairs.foldl (fun table pair => table.insert pair.1 pair.2) ∅

/-- A value of each item under the key that the item carries. -/
def byKey {α : Type} (key : α → String) (value : α → β) (items : List α) : Table β :=
  ofPairs (items.map fun item => (key item, value item))

def group (key : β → String) (items : List β) : Table (List β) :=
  items.foldl (fun table item => table.alter (key item) fun held => some (held.getD [] ++ [item])) ∅

def putIn (table : Table (Table β)) (owner key : String) (value : β) : Table (Table β) :=
  table.alter owner fun part => some ((part.getD ∅).insert key value)

/-- Drops one entry of an owner's part, and the part with its last entry. -/
def dropFrom (table : Table (Table β)) (owner key : String) : Table (Table β) :=
  table.alter owner fun part =>
    part.bind fun held =>
      let rest := held.erase key
      if rest.isEmpty then none else some rest

def lookIn (table : Table (Table β)) (owner key : String) : Option β :=
  table[owner]?.bind (·[key]?)

/-- A slot that each item may overwrite holds the last value that any of them had for it. -/
theorem view_foldl {σ α : Type} (view : σ → Option β) (hit : α → Bool) (value : α → Option β)
    {step : σ → α → σ}
    (writes : ∀ s a, view (step s a) = if hit a then (value a).or (view s) else view s)
    (items : List α) (s : σ) :
    view (items.foldl step s) = ((items.filter hit).filterMap value).getLast?.or (view s) := by
  induction items generalizing s with
  | nil => rfl
  | cons a rest ih =>
    have first : (([a].filter hit).filterMap value).getLast?.or (view s) = view (step s a) := by
      rw [writes]
      cases hits : hit a <;> cases said : value a <;> simp [hits, said]
    rw [List.foldl_cons, ih, ← first, ← Option.or_assoc, ← List.getLast?_append,
      ← List.filterMap_append, ← List.filter_append, List.singleton_append]

theorem getElem?_ofPairs (pairs : List (String × β)) (key : String) :
    (ofPairs pairs)[key]? = ((pairs.filter (·.1 == key)).map (·.2)).getLast? := by
  have writes (table : Table β) (pair : String × β) : (table.insert pair.1 pair.2)[key]? =
      if pair.1 == key then (some pair.2).or table[key]? else table[key]? := by
    by_cases same : pair.1 = key <;> simp [Std.ExtTreeMap.getElem?_insert, same]
  have written := view_foldl (fun table : Table β => table[key]?) (·.1 == key)
    (fun pair => some pair.2) writes pairs ∅
  rw [← List.filterMap_eq_map']
  exact written.trans (by simp)

theorem mem_ofPairs_iff (pairs : List (String × β)) (key : String) :
    key ∈ ofPairs pairs ↔ ∃ pair ∈ pairs, pair.1 = key := by
  rw [Std.ExtTreeMap.mem_iff_isSome_getElem?, getElem?_ofPairs, Option.isSome_iff_ne_none, ne_eq,
    List.getLast?_eq_none_iff]
  simp

theorem getD_foldl_group (key : β → String) (items : List β) (table : Table (List β))
    (owner : String) :
    ((items.foldl (fun table item =>
        table.alter (key item) fun held => some (held.getD [] ++ [item])) table)[owner]?).getD [] =
      (table[owner]?).getD [] ++ items.filter (key · == owner) := by
  induction items generalizing table with
  | nil => simp
  | cons item rest ih =>
    rw [List.foldl_cons, ih, Std.ExtTreeMap.getElem?_alter]
    by_cases own : key item = owner <;> simp [own]

theorem getD_group (key : β → String) (items : List β) (owner : String) :
    ((group key items)[owner]?).getD [] = items.filter (key · == owner) := by
  rw [group, getD_foldl_group, Std.ExtTreeMap.getElem?_empty]
  rfl

theorem values_eq (table : Table β) : table.values = table.toList.map (·.2) := by
  obtain ⟨⟨inner⟩⟩ := table
  induction inner using Quotient.inductionOn with
  | h tree =>
    show tree.inner.values = (Std.DTreeMap.Internal.Impl.Const.toList tree.inner).map (·.2)
    rw [Std.DTreeMap.Internal.Impl.values_eq_map_snd,
      Std.DTreeMap.Internal.Impl.Const.toList_eq_toListModel_map, List.map_map]
    rfl

theorem mem_values_iff (table : Table β) (value : β) :
    value ∈ table.values ↔ ∃ key : String, table[key]? = some value := by
  rw [values_eq, List.mem_map]
  constructor
  · rintro ⟨⟨key, held⟩, listed, rfl⟩
    exact ⟨key, Std.ExtTreeMap.mem_toList_iff_getElem?_eq_some.mp listed⟩
  · rintro ⟨key, held⟩
    exact ⟨(key, value), Std.ExtTreeMap.mem_toList_iff_getElem?_eq_some.mpr held, rfl⟩

theorem keys_lt (table : Table β) : table.keys.Pairwise (· < ·) :=
  table.ordered_keys.imp fun before => compareOfLessAndEq_eq_lt.mp before

theorem getElem?_part (table : Table (Table β)) (owner key : String) :
    (table[owner]?.getD ∅)[key]? = table.lookIn owner key := by
  cases part : table[owner]? <;> simp [lookIn, part]

theorem mem_keys_part (table : Table (Table β)) (owner key : String) :
    key ∈ (table[owner]?.getD ∅).keys ↔ (lookIn table owner key).isSome = true := by
  rw [Std.ExtTreeMap.mem_keys, Std.ExtTreeMap.mem_iff_isSome_getElem?, getElem?_part]

theorem getElem?_putIn (table : Table (Table β)) (owner key other : String) (value : β) :
    (table.putIn owner key value)[other]? =
      if owner = other then some ((table[owner]?.getD ∅).insert key value) else table[other]? := by
  simp [putIn, Std.ExtTreeMap.getElem?_alter]

theorem getElem?_dropFrom (table : Table (Table β)) (owner key other : String) :
    (table.dropFrom owner key)[other]? =
      if owner = other then
        table[owner]?.bind fun held => if (held.erase key).isEmpty then none else some (held.erase key)
      else table[other]? := by
  simp [dropFrom, Std.ExtTreeMap.getElem?_alter]

theorem lookIn_insert (table : Table (Table β)) (owner other field : String) (part : Table β) :
    Table.lookIn (table.insert owner part) other field =
      if owner = other then part[field]? else table.lookIn other field := by
  by_cases same : owner = other <;> simp [lookIn, Std.ExtTreeMap.getElem?_insert, same]

theorem lookIn_erase (table : Table (Table β)) (owner other field : String) :
    Table.lookIn (table.erase owner) other field =
      if owner = other then none else table.lookIn other field := by
  by_cases same : owner = other <;> simp [lookIn, Std.ExtTreeMap.getElem?_erase, same]

theorem lookIn_putIn (table : Table (Table β)) (owner key other field : String) (value : β) :
    (table.putIn owner key value).lookIn other field =
      if owner = other ∧ key = field then some value else table.lookIn other field := by
  by_cases owners : owner = other
  · subst owners
    by_cases keys : key = field <;> cases held : table[owner]? <;>
      simp [lookIn, getElem?_putIn, Std.ExtTreeMap.getElem?_insert, held, keys]
  · simp [lookIn, getElem?_putIn, owners]

theorem lookIn_dropFrom (table : Table (Table β)) (owner key other field : String) :
    (table.dropFrom owner key).lookIn other field =
      if owner = other ∧ key = field then none else table.lookIn other field := by
  by_cases owners : owner = other
  · subst owners
    cases found : table[owner]? with
    | none => simp [lookIn, getElem?_dropFrom, found]
    | some held =>
      have kept : (table.dropFrom owner key).lookIn owner field = (held.erase key)[field]? := by
        by_cases bare : held.erase key = ∅ <;> simp [lookIn, getElem?_dropFrom, found, bare]
      rw [kept, Std.ExtTreeMap.getElem?_erase]
      simp [lookIn, found]
  · simp [lookIn, getElem?_dropFrom, owners]

def NoEmptyPart (table : Table (Table β)) : Prop := ∀ (owner : String) (part : Table β),
  table[owner]? = some part → part ≠ ∅

theorem NoEmptyPart.empty : NoEmptyPart (∅ : Table (Table β)) := by
  intro owner part held
  simp at held

theorem NoEmptyPart.ofPairs {pairs : List (String × Table β)} (entries : ∀ pair ∈ pairs, pair.2 ≠ ∅) :
    NoEmptyPart (ofPairs pairs) := by
  intro owner part held
  rw [getElem?_ofPairs] at held
  obtain ⟨pair, member, rfl⟩ := List.mem_map.mp (List.mem_of_getLast? held)
  exact entries pair (List.mem_filter.mp member).1

theorem NoEmptyPart.insert {table : Table (Table β)} (full : table.NoEmptyPart) (owner : String)
    {part : Table β} (entries : part ≠ ∅) : NoEmptyPart (table.insert owner part) := by
  intro other found held
  rw [Std.ExtTreeMap.getElem?_insert] at held
  split at held
  · rw [← Option.some.inj held]
    exact entries
  · exact full other found held

theorem NoEmptyPart.erase {table : Table (Table β)} (full : table.NoEmptyPart) (owner : String) :
    NoEmptyPart (table.erase owner) := by
  intro other found held
  rw [Std.ExtTreeMap.getElem?_erase] at held
  split at held
  · contradiction
  · exact full other found held

theorem NoEmptyPart.putIn {table : Table (Table β)} (full : table.NoEmptyPart) (owner key : String)
    (value : β) : NoEmptyPart (table.putIn owner key value) := by
  intro other found held
  rw [getElem?_putIn] at held
  split at held
  · rw [← Option.some.inj held]
    exact Std.ExtTreeMap.insert_ne_empty
  · exact full other found held

theorem NoEmptyPart.dropFrom {table : Table (Table β)} (full : table.NoEmptyPart)
    (owner key : String) : NoEmptyPart (table.dropFrom owner key) := by
  intro other found held
  rw [getElem?_dropFrom] at held
  split at held
  · obtain ⟨part, _, kept⟩ := Option.bind_eq_some_iff.mp held
    split at kept
    · contradiction
    · rename_i rest
      rw [← Option.some.inj kept]
      exact fun bare => rest (by rw [bare]; exact Std.ExtTreeMap.isEmpty_empty)
  · exact full other found held

theorem NoEmptyPart.getElem?_eq_none_iff {table : Table (Table β)} (full : table.NoEmptyPart)
    (owner : String) : table[owner]? = none ↔ ∀ key, table.lookIn owner key = none := by
  constructor
  · intro absent key
    simp [lookIn, absent]
  · intro nothing
    cases held : table[owner]? with
    | none => rfl
    | some part =>
      have bare : part = ∅ := by
        apply Std.ExtTreeMap.eq_empty_iff_forall_not_mem.mpr
        intro key member
        have found := nothing key
        simp only [lookIn, held, Option.bind_some] at found
        rw [Std.ExtTreeMap.mem_iff_isSome_getElem?, found] at member
        contradiction
      exact absurd bare (full owner part held)

end Table

end RunBoard
