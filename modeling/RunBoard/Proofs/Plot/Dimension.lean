import RunBoard.Plot.Parallel
import RunBoard.Proofs.Number.Comparison

namespace RunBoard.Plot

section

variable {labels : Array String}
  (ascending : ∀ i j (iBound : i < labels.size) (jBound : j < labels.size), i < j →
    labels[i] < labels[j])

include ascending in
theorem place_lt_of_label_lt {i j : Nat} (iBound : i < labels.size) (jBound : j < labels.size)
    (less : labels[i] < labels[j]) : i < j := by
  by_contra notBefore
  rcases Nat.eq_or_lt_of_le (Nat.le_of_not_lt notBefore) with rfl | after
  · exact String.lt_irrefl _ less
  · exact String.lt_asymm less (ascending j i jBound iBound after)

include ascending in
theorem place_eq_of_label_eq {i j : Nat} (iBound : i < labels.size) (jBound : j < labels.size)
    (same : labels[i] = labels[j]) : i = j := by
  rcases Nat.lt_trichotomy i j with before | alike | after
  · have order := ascending i j iBound jBound before
    rw [same] at order
    exact (String.lt_irrefl _ order).elim
  · exact alike
  · have order := ascending j i jBound iBound after
    rw [same] at order
    exact (String.lt_irrefl _ order).elim

include ascending in
theorem placeOf?_eq_some {low high k : Nat} {bound : high ≤ labels.size} (after : low ≤ k)
    (before : k < high) (inside : k < labels.size) :
    placeOf? labels labels[k] low high bound = some k := by
  fun_induction placeOf? labels labels[k] low high bound with
  | case1 low high bound left middle label same =>
    rw [place_eq_of_label_eq ascending (by omega) inside same]
  | case2 low high bound left middle label differ less ih =>
    exact ih (place_lt_of_label_lt ascending (by omega) inside less) before
  | case3 low high bound left middle label differ notLess ih =>
    have greater : labels[k] < labels[middle] :=
      Std.lt_of_le_of_ne (String.not_lt.mp notLess) (Ne.symm differ)
    exact ih after (place_lt_of_label_lt ascending inside (by omega) greater)
  | case4 low high bound done => omega

end

/-- Ascending labels, each in use, and the place of its label for every text. -/
structure Encodes (texts : List String) (values : List Nat) (labels : List String) : Prop where
  ascending : labels.Pairwise (· < ·)
  reads : values.map (labels[·]?) = texts.map some
  used : ∀ place < labels.length, place ∈ values

theorem labelPlace_getElem {labels : List String} (ascending : labels.Pairwise (· < ·)) {k : Nat}
    (inside : k < labels.length) : labelPlace labels labels[k] = k := by
  have order (i j : Nat) (iBound : i < labels.toArray.size) (jBound : j < labels.toArray.size)
      (less : i < j) : labels.toArray[i] < labels.toArray[j] :=
    List.pairwise_iff_getElem.mp ascending i j iBound jBound less
  have within : k < labels.toArray.size := inside
  have found : placeOf? labels.toArray labels.toArray[k] 0 labels.toArray.size (Nat.le_refl _) =
      some k := placeOf?_eq_some order (Nat.zero_le k) within within
  rw [labelPlace, ← List.getElem_toArray within, found, Option.getD_some]

theorem encodes_labelPlace {texts labels : List String} (ascending : labels.Pairwise (· < ·))
    (members : ∀ label, label ∈ labels ↔ label ∈ texts) :
    Encodes texts (texts.map (labelPlace labels)) labels where
  ascending := ascending
  reads := by
    rw [List.map_map]
    apply List.map_congr_left
    intro text listed
    obtain ⟨k, inside, rfl⟩ := List.mem_iff_getElem.mp ((members text).mpr listed)
    rw [Function.comp_apply, labelPlace_getElem ascending inside, List.getElem?_eq_getElem inside]
  used place inside := by
    have listed := (members labels[place]).mp (List.getElem_mem inside)
    exact List.mem_map.mpr ⟨labels[place], listed, labelPlace_getElem ascending inside⟩

theorem mem_keys_ofPairs (texts : List String) (label : String) :
    label ∈ (Table.ofPairs (texts.map fun text => (text, ()))).keys ↔ label ∈ texts := by
  rw [Std.ExtTreeMap.mem_keys, Table.mem_ofPairs_iff]
  simp

theorem mapM_eq_some_iff {α β : Type} (read : α → Option β) (items : List α) (values : List β) :
    items.mapM read = some values ↔ items.map read = values.map some := by
  induction items generalizing values with
  | nil => cases values <;> simp
  | cons item rest ih =>
    rw [List.mapM_cons, List.map_cons]
    cases values with
    | nil => cases read item <;> cases rest.mapM read <;> simp
    | cons value values =>
      rw [List.map_cons, List.cons.injEq, ← ih]
      cases read item <;> cases rest.mapM read <;> simp

theorem mapM_eq_none_iff {α β : Type} (read : α → Option β) (items : List α) :
    items.mapM read = none ↔ ∃ item ∈ items, read item = none := by
  induction items with
  | nil => simp
  | cons item rest ih =>
    simp only [List.mapM_cons, List.mem_cons, exists_eq_or_imp, ← ih]
    cases read item <;> cases rest.mapM read <;> simp

/-- What the values of a dimension tell of texts. They are numbers exactly when every text is one. -/
def Shows (texts : List String) : DimensionValues → Prop
  | .numeric values low high =>
    texts.map Compare.numberOf? = values.map some ∧ Binary64.IsRange values low high
  | .categorical values labels =>
    (∃ text ∈ texts, Compare.numberOf? text = none) ∧ Encodes texts values labels

theorem shows_dimensionValues (texts : List String) : Shows texts (dimensionValues texts) := by
  unfold dimensionValues
  cases read : texts.mapM Compare.numberOf? with
  | some numbers =>
    exact ⟨(mapM_eq_some_iff ..).mp read, Binary64.isRange_foldl numbers⟩
  | none =>
    exact ⟨(mapM_eq_none_iff ..).mp read,
      encodes_labelPlace (Table.keys_lt _) (mem_keys_ofPairs texts)⟩

def DimensionValues.size : DimensionValues → Nat
  | .numeric values _ _ => values.length
  | .categorical values _ => values.length

theorem Shows.size_eq {texts : List String} {values : DimensionValues} (shown : Shows texts values) :
    values.size = texts.length := by
  cases values with
  | numeric values low high => simpa [DimensionValues.size] using (congrArg List.length shown.1).symm
  | categorical values labels => simpa [DimensionValues.size] using congrArg List.length shown.2.reads

end RunBoard.Plot
