namespace RunBoard.Sorting

variable {α : Type} {le : α → α → Bool}

theorem filter_mergeSort (trans : ∀ a b c, le a b = true → le b c = true → le a c = true)
    (total : ∀ a b, (le a b || le b a) = true) {keep : α → Bool}
    (alike : ∀ a b, keep a = true → keep b = true → le a b = true) (items : List α) :
    (items.mergeSort le).filter keep = items.filter keep := by
  have ordered : (items.filter keep).Pairwise fun a b => le a b = true := by
    apply List.pairwise_of_forall_mem_list
    intro a left b right
    exact alike a b (List.mem_filter.mp left).2 (List.mem_filter.mp right).2
  have kept : (items.filter keep).Sublist ((items.mergeSort le).filter keep) := by
    have within := List.sublist_mergeSort trans total ordered List.filter_sublist
    have filtered := within.filter keep
    simp only [List.filter_filter, Bool.and_self] at filtered
    exact filtered
  have sizes := ((List.mergeSort_perm items le).filter keep).length_eq
  exact (kept.eq_of_length sizes.symm).symm

theorem mergeSort_eq_of_perm (trans : ∀ a b c, le a b = true → le b c = true → le a c = true)
    (total : ∀ a b, (le a b || le b a) = true) {items others : List α} (same : others.Perm items)
    (apart : ∀ a ∈ items, ∀ b ∈ items, le a b = true → le b a = true → a = b) :
    others.mergeSort le = items.mergeSort le := by
  have sorted : (others.mergeSort le).Perm (items.mergeSort le) :=
    ((List.mergeSort_perm others le).trans same).trans (List.mergeSort_perm items le).symm
  apply sorted.eq_of_pairwise
  · intro a b left right
    have ofItems : a ∈ items := same.mem_iff.mp (List.mem_mergeSort.mp left)
    exact apart a ofItems b (List.mem_mergeSort.mp right)
  · exact List.pairwise_mergeSort trans total others
  · exact List.pairwise_mergeSort trans total items

/-- The list has each item that is held, once, and in this order. -/
structure Shows (items : List α) (held : α → Prop) (before : α → α → Prop) : Prop where
  all (a : α) : a ∈ items ↔ held a
  once : items.Nodup
  order : items.Pairwise before

theorem Shows.unique {items others : List α} {held : α → Prop} {before : α → α → Prop}
    (shown : Shows items held before) (asymm : ∀ a b, before a b → ¬before b a)
    (other : Shows others held before) : others = items := by
  have same : others.Perm items := by
    apply (List.perm_ext_iff_of_nodup other.once shown.once).mpr
    intro a
    rw [other.all, shown.all]
  apply same.eq_of_pairwise _ other.order shown.order
  intro a b _ _ ab ba
  exact absurd ba (asymm a b ab)

theorem shows_mergeSort (trans : ∀ a b c, le a b = true → le b c = true → le a c = true)
    (total : ∀ a b, (le a b || le b a) = true) {κ : Type} (key : α → κ) {before : α → α → Prop}
    (strict : ∀ a b, le a b = true → key a ≠ key b → before a b) {items : List α}
    (distinct : (items.map key).Nodup) {held : α → Prop} (all : ∀ a, a ∈ items ↔ held a) :
    Shows (items.mergeSort le) held before where
  all a := List.mem_mergeSort.trans (all a)
  once := by
    have once : items.Nodup :=
      List.Pairwise.of_map key (fun a b apart same => apart (congrArg key same)) distinct
    exact (List.mergeSort_perm items le).nodup_iff.mpr once
  order := by
    have sorted := List.pairwise_mergeSort trans total items
    have apart := ((List.mergeSort_perm items le).map key).nodup_iff.mpr distinct
    rw [List.Nodup, List.pairwise_map] at apart
    refine (sorted.and apart).imp ?_
    rintro a b ⟨le, ne⟩
    exact strict a b le ne

end RunBoard.Sorting
