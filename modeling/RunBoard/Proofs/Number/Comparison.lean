import Mathlib.Data.List.Induction
import RunBoard.Number.Binary64

namespace RunBoard.Binary64

theorem same_iff (x y : Binary64) :
    x.same y = true ↔ x.isNaN = false ∧ y.isNaN = false ∧ x.position = y.position := by
  simp only [same, Bool.and_eq_true, Bool.not_eq_true', beq_iff_eq, and_assoc]

theorem same_symm {x y : Binary64} (alike : x.same y = true) : y.same x = true := by
  obtain ⟨hx, hy, place⟩ := (same_iff x y).mp alike
  exact (same_iff y x).mpr ⟨hy, hx, place.symm⟩

theorem same_trans (x y z : Binary64) (xy : x.same y = true) (yz : y.same z = true) :
    x.same z = true := by
  obtain ⟨hx, -, left⟩ := (same_iff x y).mp xy
  obtain ⟨-, hz, right⟩ := (same_iff y z).mp yz
  exact (same_iff x z).mpr ⟨hx, hz, left.trans right⟩

theorem position_bounds {x : Binary64} (number : x.isNaN = false) :
    negInfinity.position ≤ x.position ∧ x.position ≤ infinity.position := by
  have top : infinity.position = infinityBits := by decide
  have bottom : negInfinity.position = -(infinityBits : Int) := by decide
  have size : x.magnitude ≤ infinityBits := by simpa [isNaN] using number
  rw [top, bottom, position]
  split <;> omega

/-- Of two numbers the one that comes first by `place` is chosen, and a number before a NaN. -/
structure Chooses (choose : Binary64 → Binary64 → Binary64) (place : Binary64 → Int) : Prop where
  first {x y : Binary64} (hx : x.isNaN = false) (hy : y.isNaN = false) :
    choose x y = x ∧ place x ≤ place y ∨ choose x y = y ∧ place y ≤ place x
  number {x y : Binary64} (hx : x.isNaN = false) (hy : y.isNaN = true) : choose x y = x

theorem chooses_lesser : Chooses lesser position where
  first {x y} hx hy := by
    have choice : lesser x y = if x.position < y.position then x else y := by
      simp [lesser, below, hx, hy]
    rw [choice]
    split
    · rename_i order
      exact .inl ⟨rfl, Int.le_of_lt order⟩
    · rename_i order
      exact .inr ⟨rfl, Int.not_lt.mp order⟩
  number hx hy := by simp [lesser, hx, hy]

theorem chooses_greater : Chooses greater (fun x => -x.position) where
  first {x y} hx hy := by
    have choice : greater x y = if y.position < x.position then x else y := by
      simp [greater, below, hx, hy]
    rw [choice]
    split
    · rename_i order
      exact .inl ⟨rfl, Int.neg_le_neg (Int.le_of_lt order)⟩
    · rename_i order
      exact .inr ⟨rfl, Int.neg_le_neg (Int.not_lt.mp order)⟩
  number hx hy := by simp [greater, hx, hy]

structure Chosen (place : Binary64 → Int) (start : Binary64) (values : List Binary64)
    (held : Binary64) : Prop where
  number : held.isNaN = false
  first : ∀ v ∈ values, v.isNaN = false → place held ≤ place v
  listed : (∃ v ∈ values, v.isNaN = false ∧ place v = place held) ∨
    held = start ∧ ∀ v ∈ values, v.isNaN = true

theorem Chosen.snoc {choose : Binary64 → Binary64 → Binary64} {place : Binary64 → Int}
    (chooses : Chooses choose place) {start held v : Binary64} {earlier : List Binary64}
    (chosen : Chosen place start earlier held) (last : v.isNaN = false → place v ≤ place start) :
    Chosen place start (earlier ++ [v]) (choose held v) := by
  cases nan : v.isNaN with
  | true =>
    rw [chooses.number chosen.number nan]
    refine ⟨chosen.number, ?_, ?_⟩
    · refine List.forall_mem_append.mpr ⟨chosen.first, List.forall_mem_singleton.mpr ?_⟩
      simp [nan]
    · rcases chosen.listed with ⟨w, member, listed⟩ | ⟨same, bare⟩
      · exact .inl ⟨w, List.mem_append_left _ member, listed⟩
      · exact .inr ⟨same, List.forall_mem_append.mpr ⟨bare, List.forall_mem_singleton.mpr nan⟩⟩
  | false =>
    have own : v ∈ earlier ++ [v] := List.mem_append_right _ List.mem_cons_self
    rcases chooses.first chosen.number nan with ⟨taken, order⟩ | ⟨taken, order⟩
    · rw [taken]
      refine ⟨chosen.number, ?_, .inl ?_⟩
      · exact List.forall_mem_append.mpr ⟨chosen.first, List.forall_mem_singleton.mpr fun _ => order⟩
      · rcases chosen.listed with ⟨w, member, listed⟩ | ⟨rfl, -⟩
        · exact ⟨w, List.mem_append_left _ member, listed⟩
        · exact ⟨v, own, nan, Int.le_antisymm (last nan) order⟩
    · rw [taken]
      refine ⟨nan, ?_, .inl ⟨v, own, nan, rfl⟩⟩
      refine List.forall_mem_append.mpr ⟨?_, List.forall_mem_singleton.mpr fun _ => Int.le_refl _⟩
      intro w member numeric
      exact Int.le_trans order (chosen.first w member numeric)

theorem Chooses.foldl {choose : Binary64 → Binary64 → Binary64} {place : Binary64 → Int}
    (chooses : Chooses choose place) {start : Binary64} (number : start.isNaN = false)
    (values : List Binary64) (last : ∀ v ∈ values, v.isNaN = false → place v ≤ place start) :
    Chosen place start values (values.foldl choose start) := by
  induction values using List.reverseRecOn with
  | nil => exact ⟨number, by simp, .inr ⟨rfl, by simp⟩⟩
  | append_singleton earlier v ih =>
    obtain ⟨before, own⟩ := List.forall_mem_append.mp last
    rw [List.foldl_append]
    exact (ih before).snoc chooses (own v List.mem_cons_self)

theorem Chosen.attained {place : Binary64 → Int} {start held : Binary64} {values : List Binary64}
    (chosen : Chosen place start values held) (some_number : ∃ v ∈ values, v.isNaN = false) :
    ∃ v ∈ values, v.isNaN = false ∧ place v = place held := by
  rcases chosen.listed with listed | ⟨-, bare⟩
  · exact listed
  · obtain ⟨v, member, number⟩ := some_number
    rw [bare v member] at number
    contradiction

theorem Chosen.eq_start {place : Binary64 → Int} {start held : Binary64} {values : List Binary64}
    (chosen : Chosen place start values held) (bare : ∀ v ∈ values, v.isNaN = true) :
    held = start := by
  rcases chosen.listed with ⟨v, member, number, -⟩ | ⟨same, -⟩
  · rw [bare v member] at number
    contradiction
  · exact same

/-- All numbers of a list lie from `low` to `high`, and both ends are among them; a list without a
number has the range from infinity down to negative infinity. -/
structure IsRange (values : List Binary64) (low high : Binary64) : Prop where
  bounds : ∀ v ∈ values, v.isNaN = false → low.position ≤ v.position ∧ v.position ≤ high.position
  attained : (∃ v ∈ values, v.isNaN = false) →
    (∃ v ∈ values, v.same low = true) ∧ ∃ v ∈ values, v.same high = true
  empty : (∀ v ∈ values, v.isNaN = true) → low = infinity ∧ high = negInfinity

theorem isRange_foldl (values : List Binary64) :
    IsRange values (values.foldl lesser infinity) (values.foldl greater negInfinity) := by
  have top : infinity.isNaN = false := by decide
  have bottom : negInfinity.isNaN = false := by decide
  have low := chooses_lesser.foldl top values fun v _ number => (position_bounds number).2
  have high := chooses_greater.foldl bottom values fun v _ number =>
    Int.neg_le_neg (position_bounds number).1
  refine ⟨?_, ?_, fun bare => ⟨low.eq_start bare, high.eq_start bare⟩⟩
  · intro v member number
    have below := low.first v member number
    have above := Int.neg_le_neg_iff.mp (high.first v member number)
    exact ⟨below, above⟩
  · intro some_number
    obtain ⟨v, least, vNumber, vPlace⟩ := low.attained some_number
    obtain ⟨w, greatest, wNumber, wPlace⟩ := high.attained some_number
    have vSame := (same_iff v _).mpr ⟨vNumber, low.number, vPlace⟩
    have wSame := (same_iff w _).mpr ⟨wNumber, high.number, Int.neg_inj.mp wPlace⟩
    exact ⟨⟨v, least, vSame⟩, w, greatest, wSame⟩

end RunBoard.Binary64
