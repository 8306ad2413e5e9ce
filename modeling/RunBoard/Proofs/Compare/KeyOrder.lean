import RunBoard.Plot.Data
import RunBoard.Proofs.Compare.Rows
import RunBoard.Proofs.List.Sorting
import RunBoard.Proofs.Text.ByteOrder

namespace RunBoard.Compare

open Plot

def AllNumbers (keys : List String) : Prop := ∀ key ∈ keys, (numberOf? key).isSome = true

instance (keys : List String) : Decidable (AllNumbers keys) :=
  inferInstanceAs (Decidable (∀ key ∈ keys, _))

theorem AllNumbers.perm {keys others : List String} (numbers : AllNumbers keys)
    (same : others.Perm keys) : AllNumbers others :=
  fun key member => numbers key (same.mem_iff.mp member)

theorem AllNumbers.both {keys : List String} (numbers : AllNumbers keys) {a b : String}
    (left : a ∈ keys) (right : b ∈ keys) :
    (∃ x, numberOf? a = some x) ∧ ∃ y, numberOf? b = some y :=
  ⟨Option.isSome_iff_exists.mp (numbers a left), Option.isSome_iff_exists.mp (numbers b right)⟩

theorem sortKeys_of_numbers {keys : List String} (numbers : AllNumbers keys) :
    sortKeys keys = keys.mergeSort numericLe := by
  have all : (keys.all fun key => (numberOf? key).isSome) = true := List.all_eq_true.mpr numbers
  rw [sortKeys, if_pos all]

theorem sortKeys_of_words {keys : List String} (words : ¬AllNumbers keys) :
    sortKeys keys = keys.mergeSort textLe := by
  have some_word : ¬(keys.all fun key => (numberOf? key).isSome) = true := fun all =>
    words (List.all_eq_true.mp all)
  rw [sortKeys, if_neg some_word]

theorem numericLe_trans (a b c : String) (ab : numericLe a b = true) (bc : numericLe b c = true) :
    numericLe a c = true := Binary64.totalLe_trans _ _ _ ab bc

theorem numericLe_total (a b : String) : (numericLe a b || numericLe b a) = true :=
  Binary64.totalLe_total _ _

theorem numericLe_of_some {a b : String} {x y : Binary64} (left : numberOf? a = some x)
    (right : numberOf? b = some y) : numericLe a b = x.totalLe y := by
  rw [numericLe, left, right, Option.getD_some, Option.getD_some]

theorem numericLe_both_iff {a b : String} {x y : Binary64} (left : numberOf? a = some x)
    (right : numberOf? b = some y) :
    (numericLe a b = true ∧ numericLe b a = true) ↔ numberOf? a = numberOf? b := by
  rw [numericLe_of_some left right, numericLe_of_some right left, left, right, Option.some.injEq]
  constructor
  · rintro ⟨xy, yx⟩
    exact Binary64.totalLe_antisymm xy yx
  · rintro rfl
    have le : x.totalLe x = true := decide_eq_true (Int.le_refl x.rank)
    exact ⟨le, le⟩

theorem textLe_trans (a b c : String) (ab : textLe a b = true) (bc : textLe b c = true) :
    textLe a c = true := by
  simp only [textLe, decide_eq_true_eq] at *
  exact String.le_trans ab bc

theorem textLe_total (a b : String) : (textLe a b || textLe b a) = true := by
  simp only [textLe, Bool.or_eq_true, decide_eq_true_eq]
  exact String.le_total a b

theorem textLe_antisymm {a b : String} (ab : textLe a b = true) (ba : textLe b a = true) : a = b := by
  simp only [textLe, decide_eq_true_eq] at ab ba
  exact String.le_antisymm ab ba

/-- Sorted by the numbers that the keys are, with keys of one number in the order of `keys`. -/
structure NumberSort (keys sorted : List String) : Prop where
  ordered : sorted.Pairwise fun a b =>
    ∃ x y, numberOf? a = some x ∧ numberOf? b = some y ∧ x.totalLe y = true
  stable (x : Binary64) :
    sorted.filter (numberOf? · == some x) = keys.filter (numberOf? · == some x)

theorem numberSort_sortKeys {keys : List String} (numbers : AllNumbers keys) :
    NumberSort keys (sortKeys keys) := by
  rw [sortKeys_of_numbers numbers]
  constructor
  · have sorted := List.pairwise_mergeSort numericLe_trans numericLe_total keys
    refine sorted.imp_of_mem ?_
    intro a b left right before
    obtain ⟨⟨x, isX⟩, y, isY⟩ :=
      numbers.both (List.mem_mergeSort.mp left) (List.mem_mergeSort.mp right)
    rw [numericLe_of_some isX isY] at before
    exact ⟨x, y, isX, isY, before⟩
  · intro x
    apply Sorting.filter_mergeSort numericLe_trans numericLe_total
    intro a b left right
    have isX : numberOf? a = some x := eq_of_beq left
    have same : numberOf? b = some x := eq_of_beq right
    rw [numericLe_of_some isX same]
    exact decide_eq_true (Int.le_refl x.rank)

theorem bytes_sortKeys {keys : List String} (words : ¬AllNumbers keys) :
    (sortKeys keys).Pairwise fun a b => Text.bytes a ≤ Text.bytes b := by
  rw [sortKeys_of_words words]
  refine (List.pairwise_mergeSort textLe_trans textLe_total keys).imp ?_
  intro a b before
  exact (Text.bytes_le_iff a b).mpr (of_decide_eq_true before)

/-- When all keys are numbers, different keys are different numbers. -/
def Untied (keys : List String) : Prop :=
  AllNumbers keys → ∀ a ∈ keys, ∀ b ∈ keys,
    numericLe a b = true → numericLe b a = true → a = b

theorem untied_iff {keys : List String} : Untied keys ↔
    (AllNumbers keys → ∀ a ∈ keys, ∀ b ∈ keys, numberOf? a = numberOf? b → a = b) := by
  constructor
  · intro untied numbers a left b right same
    obtain ⟨⟨x, isX⟩, y, isY⟩ := numbers.both left right
    have alike := (numericLe_both_iff isX isY).mpr same
    exact untied numbers a left b right alike.1 alike.2
  · intro distinct numbers a left b right ab ba
    obtain ⟨⟨x, isX⟩, y, isY⟩ := numbers.both left right
    have same := (numericLe_both_iff isX isY).mp ⟨ab, ba⟩
    exact distinct numbers a left b right same

theorem sortKeys_eq_of_perm {keys others : List String} (untied : Untied keys)
    (same : others.Perm keys) : sortKeys others = sortKeys keys := by
  by_cases numbers : AllNumbers keys
  · rw [sortKeys_of_numbers numbers, sortKeys_of_numbers (numbers.perm same)]
    exact Sorting.mergeSort_eq_of_perm numericLe_trans numericLe_total same (untied numbers)
  · have words : ¬AllNumbers others := fun all => numbers (all.perm same.symm)
    rw [sortKeys_of_words numbers, sortKeys_of_words words]
    apply Sorting.mergeSort_eq_of_perm textLe_trans textLe_total same
    intro a _ b _
    exact textLe_antisymm

structure Iterates (keys : List String) (holds : String → Prop) : Prop where
  once : keys.Nodup
  held (key : String) : key ∈ keys ↔ holds key

theorem Iterates.perm {keys others : List String} {holds : String → Prop}
    (first : Iterates keys holds) (second : Iterates others holds) : others.Perm keys := by
  apply (List.perm_ext_iff_of_nodup second.once first.once).mpr
  intro key
  rw [second.held, first.held]

theorem Iterates.of_perm {keys others : List String} {holds : String → Prop}
    (walked : Iterates keys holds) (same : others.Perm keys) : Iterates others holds :=
  ⟨same.nodup_iff.mpr walked.once, fun key => same.mem_iff.trans (walked.held key)⟩

theorem iterates_keys {β : Type} (table : Table β) : Iterates table.keys (· ∈ table) :=
  ⟨Std.ExtTreeMap.nodup_keys, fun _ => Std.ExtTreeMap.mem_keys⟩

theorem iterates_allKeys {β : Type} (tables : List (Table β)) :
    Iterates (allKeys tables) fun key => ∃ table ∈ tables, key ∈ table :=
  ⟨nodup_allKeys tables, mem_allKeys tables⟩

/-- Sorting loses no key and adds none. Keys that are all numbers ascend as numbers, stably; any
others ascend by their bytes. Unless two different keys are one number, the order found is the only
one: that of every other order of the keys, of the params and metrics of a plot and of the rows of
tables that have these keys, whichever way their keys are walked. -/
theorem keys_shown_in_one_order (keys : List String) :
    (sortKeys keys).Perm keys ∧
    (AllNumbers keys → NumberSort keys (sortKeys keys)) ∧
    (¬AllNumbers keys → (sortKeys keys).Pairwise fun a b => Text.bytes a ≤ Text.bytes b) ∧
    (Untied keys →
      (∀ others : List String, others.Perm keys → sortKeys others = sortKeys keys) ∧
      (∀ d : PlotData, Iterates keys (· ∈ d.params) → d.paramKeys = sortKeys keys) ∧
      (∀ d : PlotData, Iterates keys (· ∈ d.metrics) → d.metricKeys = sortKeys keys) ∧
      ∀ tables : List (Table String), Iterates keys (fun key => ∃ table ∈ tables, key ∈ table) →
        (rows tables).map (·.key) = sortKeys keys) := by
  refine ⟨sortKeys_perm keys, numberSort_sortKeys, bytes_sortKeys, ?_⟩
  intro untied
  have one {holds : String → Prop} {others : List String} (walked : Iterates keys holds)
      (other : Iterates others holds) : sortKeys others = sortKeys keys :=
    sortKeys_eq_of_perm untied (walked.perm other)
  refine ⟨?_, ?_, ?_, ?_⟩
  · intro others same
    exact sortKeys_eq_of_perm untied same
  · intro d walked
    exact one walked (iterates_keys d.params)
  · intro d walked
    exact one walked (iterates_keys d.metrics)
  · intro tables walked
    rw [keys_rows]
    exact one walked (iterates_allKeys tables)

theorem keys_shown_in_one_order_zeros :
    let keys := ["10", " 9", "0", "-0", "nan"]
    let sorted := ["-0", "0", " 9", "10", "nan"]
    let d : PlotData := {
      runs := ["a"], params := Table.ofPairs (keys.map fun key => (key, [some "x"])), metrics := ∅ }
    let tables := [Table.ofPairs [("0", "x"), ("nan", "y")],
      Table.ofPairs [("10", "x"), (" 9", "y"), ("-0", "x"), ("0", "z")]]
    AllNumbers keys ∧ Untied keys ∧ Iterates keys (· ∈ d.params) ∧
      Iterates keys (fun key => ∃ table ∈ tables, key ∈ table) ∧
      NumberSort keys (sortKeys keys) ∧ sortKeys keys = sorted ∧
      d.paramKeys = sorted ∧ (rows tables).map (·.key) = sorted := by
  intro keys sorted d tables
  have numbers : AllNumbers keys := by decide +kernel
  have untied : Untied keys := by
    apply untied_iff.mpr
    intro _
    decide +kernel
  have walksColumns : Iterates keys (· ∈ d.params) := (iterates_keys d.params).of_perm (by decide +kernel)
  have walksTables : Iterates keys fun key => ∃ table ∈ tables, key ∈ table :=
    (iterates_allKeys tables).of_perm (by decide +kernel)
  obtain ⟨-, byNumber, -, alike⟩ := keys_shown_in_one_order keys
  obtain ⟨perms, params, -, shownRows⟩ := alike untied
  have same : sorted.Perm keys := by decide
  have inOrder : sortKeys sorted = sorted := by
    rw [sortKeys_of_numbers (numbers.perm same)]
    exact List.mergeSort_of_pairwise (by decide +kernel)
  have shown : sortKeys keys = sorted := (perms sorted same).symm.trans inOrder
  exact ⟨numbers, untied, walksColumns, walksTables, byNumber numbers, shown,
    (params d walksColumns).trans shown, (shownRows tables walksTables).trans shown⟩

end RunBoard.Compare
