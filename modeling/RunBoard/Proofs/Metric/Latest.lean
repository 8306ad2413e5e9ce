import RunBoard.Proofs.Metric.Points

namespace RunBoard.Metric

/-- The last of the points that come last in the order of step and time. -/
def IsLatest (points : List Metric) (m : Metric) : Prop :=
  ∃ before after, points = before ++ m :: after ∧
    (∀ p ∈ before, p.step < m.step ∨ p.step = m.step ∧ p.timestamp ≤ m.timestamp) ∧
    ∀ p ∈ after, p.step < m.step ∨ p.step = m.step ∧ p.timestamp < m.timestamp

theorem notAfter_eq_false_iff (a b : Metric) :
    a.notAfter b = false ↔ b.step < a.step ∨ b.step = a.step ∧ b.timestamp < a.timestamp := by
  rw [← Bool.not_eq_true, notAfter_iff]
  simp only [Int64.lt_iff_toInt_lt, Int64.le_iff_toInt_le, ← Int64.toInt_inj]
  omega

theorem latest?_eq_some_iff (points : List Metric) (m : Metric) :
    latest? points = some m ↔ IsLatest points m := by
  constructor
  · intro picked
    have strict (a b c : Metric) (ab : (!a.notAfter b) = true) (bc : (!b.notAfter c) = true) :
        (!a.notAfter c) = true := by
      simp only [Bool.not_eq_true', notAfter_eq_false_iff, Int64.lt_iff_toInt_lt,
        ← Int64.toInt_inj] at *
      omega
    have loose (a b c : Metric) (ab : (!a.notAfter b) = false) (bc : (!b.notAfter c) = false) :
        (!a.notAfter c) = false := by
      rw [Bool.not_eq_false'] at *
      exact notAfter_trans a b c ab bc
    obtain ⟨before, after, split, beats, stays⟩ := split_of_pick strict loose picked
    refine ⟨before, after, split, fun p member => ?_, fun p member => ?_⟩
    · exact (notAfter_iff p m).mp (by simpa using beats p member)
    · exact (notAfter_eq_false_iff m p).mp (by simpa using stays p member)
  · rintro ⟨before, after, rfl, beats, stays⟩
    apply pick_of_split
    · intro p member
      simpa using (notAfter_iff p m).mpr (beats p member)
    · intro p member
      simpa using (notAfter_eq_false_iff m p).mpr (stays p member)

theorem isLatest_iff (points : List Metric) (m : Metric) :
    IsLatest points m ↔
      (∀ p ∈ points, p.step < m.step ∨ p.step = m.step ∧ p.timestamp ≤ m.timestamp) ∧
        (points.filter (isAt m.step m.timestamp)).getLast? = some m := by
  have own : isAt m.step m.timestamp m = true := (isAt_iff ..).mpr ⟨rfl, rfl⟩
  constructor
  · rintro ⟨before, after, rfl, beats, stays⟩
    have bare : after.filter (isAt m.step m.timestamp) = [] := by
      rw [List.filter_eq_nil_iff]
      intro p member alike
      obtain ⟨step, time⟩ := (isAt_iff ..).mp alike
      have earlier := stays p member
      rw [step, time] at earlier
      simp at earlier
    refine ⟨fun p member => ?_, ?_⟩
    · rcases List.mem_append.mp member with early | rest
      · exact beats p early
      · rcases List.mem_cons.mp rest with rfl | late
        · exact .inr ⟨rfl, Int64.le_refl _⟩
        · exact (stays p late).imp_right fun ⟨step, time⟩ => ⟨step, Int64.le_of_lt time⟩
    · rw [List.filter_append, List.filter_cons_of_pos own, bare, List.getLast?_concat]
  · rintro ⟨bound, last⟩
    obtain ⟨early, split⟩ := List.getLast?_eq_some_iff.mp last
    obtain ⟨front, back, rfl, -, tail⟩ := List.filter_eq_append_iff.mp split
    obtain ⟨between, after, rfl, -, -, bare⟩ := List.filter_eq_cons_iff.mp tail
    refine ⟨front ++ between, after, by rw [List.append_assoc], ?_, ?_⟩
    · intro p member
      exact bound p (by rw [← List.append_assoc]; exact List.mem_append_left _ member)
    · intro p member
      have apart := List.filter_eq_nil_iff.mp bare p member
      rcases bound p (by simp [member]) with step | ⟨step, time⟩
      · exact .inl step
      · refine .inr ⟨step, Int64.lt_of_le_of_ne time fun same => apart ?_⟩
        exact (isAt_iff ..).mpr ⟨step, same⟩

theorem IsLatest.mem {points : List Metric} {m : Metric} (latest : IsLatest points m) : m ∈ points := by
  obtain ⟨before, after, rfl, -, -⟩ := latest
  exact List.mem_append_right before List.mem_cons_self

theorem StableSort.isLatest {points sorted : List Metric} {m : Metric}
    (sort : StableSort points sorted) (latest : IsLatest points m) : IsLatest sorted m := by
  obtain ⟨bound, last⟩ := (isLatest_iff points m).mp latest
  refine (isLatest_iff sorted m).mpr ⟨fun p member => bound p (sort.perm.mem_iff.mp member), ?_⟩
  rw [sort.stable, last]

theorem getLast?_inOrder (points : List Metric) : (inOrder points).getLast? = latest? points := by
  cases found : latest? points with
  | none =>
    rw [(latest?_eq_none_iff points).mp found, inOrder, List.mergeSort_nil]
    rfl
  | some m =>
    have sort := inOrder_stableSort points
    obtain ⟨before, after, split, -, earlier⟩ :=
      sort.isLatest ((latest?_eq_some_iff points m).mp found)
    have ordered := sort.ordered
    rw [split] at ordered ⊢
    have later := (List.pairwise_cons.mp (List.pairwise_append.mp ordered).2.1).1
    cases after with
    | nil => exact List.getLast?_concat
    | cons p rest =>
      have down := earlier p List.mem_cons_self
      have up := later p List.mem_cons_self
      simp only [Int64.lt_iff_toInt_lt, Int64.le_iff_toInt_le, ← Int64.toInt_inj] at down up
      omega

end RunBoard.Metric
