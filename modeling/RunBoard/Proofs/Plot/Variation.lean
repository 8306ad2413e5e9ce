import RunBoard.Plot.Numeric
import RunBoard.Proofs.Compare.Disagreement

namespace RunBoard.Plot

theorem length_dropRepeats_pos (first : Binary64) (rest : List Binary64) :
    0 < (dropRepeats (first :: rest)).length := by
  induction rest with
  | nil => simp [dropRepeats]
  | cons v rest ih =>
    rw [dropRepeats]
    split
    · exact ih
    · exact Nat.succ_pos _

theorem length_dropRepeats_lt_two_iff (first : Binary64) (rest : List Binary64) :
    (dropRepeats (first :: rest)).length < 2 ↔ ∀ v ∈ rest, first.same v = true := by
  induction rest with
  | nil => simp [dropRepeats]
  | cons v rest ih =>
    rw [dropRepeats, List.forall_mem_cons]
    split
    · rename_i alike
      rw [ih]
      exact (and_iff_right alike).symm
    · rename_i apart
      have more := length_dropRepeats_pos v rest
      apply iff_of_false
      · rw [List.length_cons]
        omega
      · exact fun alike => apart alike.1

theorem pairwise_same_cons_iff (first : Binary64) (rest : List Binary64) :
    (first :: rest).Pairwise (fun v w => v.same w = true) ↔ ∀ v ∈ rest, first.same v = true := by
  rw [List.pairwise_cons]
  constructor
  · exact fun pairs => pairs.1
  · intro alike
    refine ⟨alike, List.pairwise_of_forall_mem_list fun v left w right => ?_⟩
    exact Binary64.same_trans v first w (Binary64.same_symm (alike v left)) (alike w right)

theorem distinctCount_lt_two_iff (numbers : List Binary64) :
    distinctCount numbers < 2 ↔ numbers.Pairwise fun v w => v.same w = true := by
  -- All pairs can be compared in sorted order, and there the first stands for every other.
  have sorted := List.mergeSort_perm numbers Binary64.totalLe
  rw [distinctCount, ← sorted.pairwise_iff Binary64.same_symm]
  cases numbers.mergeSort Binary64.totalLe with
  | nil => simp [dropRepeats]
  | cons first rest => rw [length_dropRepeats_lt_two_iff, pairwise_same_cons_iff]

/-- Two of the values are different numbers, both zeros being one, or a NaN stands beside another
value. -/
def Varied (values : List Binary64) : Prop :=
  (∃ v ∈ values, ∃ w ∈ values, v.isNaN = false ∧ w.isNaN = false ∧ v.position ≠ w.position) ∨
    2 ≤ values.length ∧ ∃ v ∈ values, v.isNaN = true

instance (values : List Binary64) : Decidable (Varied values) := inferInstanceAs (Decidable (_ ∨ _))

theorem varied_of_not_pairwise {values : List Binary64}
    (apart : ¬values.Pairwise fun v w => v.same w = true) : Varied values := by
  rw [← Compare.somePair_iff_not_pairwise] at apart
  obtain ⟨i, j, v, w, order, left, right, differ⟩ := apart
  obtain ⟨jBound, -⟩ := List.getElem?_eq_some_iff.mp right
  have hv := List.mem_of_getElem? left
  have hw := List.mem_of_getElem? right
  cases vNaN : v.isNaN with
  | true => exact .inr ⟨by omega, v, hv, vNaN⟩
  | false =>
    cases wNaN : w.isNaN with
    | true => exact .inr ⟨by omega, w, hw, wNaN⟩
    | false =>
      refine .inl ⟨v, hv, w, hw, vNaN, wNaN, fun place => differ ?_⟩
      exact (Binary64.same_iff v w).mpr ⟨vNaN, wNaN, place⟩

theorem not_pairwise_of_varied {values : List Binary64} (varied : Varied values) :
    ¬values.Pairwise fun v w => v.same w = true := by
  intro pairs
  rcases varied with ⟨v, hv, w, hw, -, -, place⟩ | ⟨two, v, hv, nan⟩
  · have : Std.Symm fun v w : Binary64 => v.same w = true := ⟨fun _ _ => Binary64.same_symm⟩
    have alike := pairs.forall hv hw fun same => place (by rw [same])
    exact place ((Binary64.same_iff v w).mp alike).2.2
  · obtain ⟨i, bound, rfl⟩ := List.getElem_of_mem hv
    rw [List.pairwise_iff_getElem] at pairs
    have number : values[i].isNaN = false := by
      rcases Nat.eq_zero_or_pos i with rfl | later
      · exact ((Binary64.same_iff ..).mp (pairs 0 1 bound (by omega) Nat.one_pos)).1
      · exact ((Binary64.same_iff ..).mp (pairs 0 i (by omega) bound later)).2.1
    rw [nan] at number
    contradiction

theorem varied_iff (values : List Binary64) : Varied values ↔ 2 ≤ distinctCount values := by
  rw [← Nat.not_lt, distinctCount_lt_two_iff]
  exact ⟨not_pairwise_of_varied, varied_of_not_pairwise⟩

end RunBoard.Plot
