import Mathlib.Data.List.Induction
import RunBoard.Entities.Absorb
import RunBoard.Proofs.List.Sorting

namespace RunBoard.Metric

theorem notAfter_iff (a b : Metric) :
    a.notAfter b = true ↔ a.step < b.step ∨ a.step = b.step ∧ a.timestamp ≤ b.timestamp := by
  simp only [notAfter, Bool.or_eq_true, Bool.and_eq_true, decide_eq_true_eq, beq_iff_eq]

theorem notAfter_trans (a b c : Metric) (ab : a.notAfter b = true) (bc : b.notAfter c = true) :
    a.notAfter c = true := by
  rw [notAfter_iff] at *
  simp only [Int64.lt_iff_toInt_lt, Int64.le_iff_toInt_le, ← Int64.toInt_inj] at *
  omega

theorem notAfter_total (a b : Metric) : (a.notAfter b || b.notAfter a) = true := by
  rw [Bool.or_eq_true, notAfter_iff, notAfter_iff]
  simp only [Int64.lt_iff_toInt_lt, Int64.le_iff_toInt_le, ← Int64.toInt_inj]
  omega

def isAt (step timestamp : Int64) (p : Metric) : Bool := p.step == step && p.timestamp == timestamp

theorem isAt_iff (step timestamp : Int64) (p : Metric) :
    p.isAt step timestamp = true ↔ p.step = step ∧ p.timestamp = timestamp := by
  simp only [isAt, Bool.and_eq_true, beq_iff_eq]

/-- Sorted by step, then time, with points that share both in the order of `points`. -/
structure StableSort (points sorted : List Metric) : Prop where
  perm : sorted.Perm points
  ordered : sorted.Pairwise fun a b =>
    a.step < b.step ∨ a.step = b.step ∧ a.timestamp ≤ b.timestamp
  stable (step timestamp : Int64) :
    sorted.filter (isAt step timestamp) = points.filter (isAt step timestamp)

theorem inOrder_stableSort (points : List Metric) : StableSort points (inOrder points) where
  perm := List.mergeSort_perm points notAfter
  ordered :=
    (List.pairwise_mergeSort notAfter_trans notAfter_total points).imp (notAfter_iff _ _).mp
  stable step timestamp := by
    apply Sorting.filter_mergeSort notAfter_trans notAfter_total
    intro a b left right
    obtain ⟨aStep, aTime⟩ := (isAt_iff ..).mp left
    obtain ⟨bStep, bTime⟩ := (isAt_iff ..).mp right
    refine (notAfter_iff a b).mpr (.inr ⟨aStep.trans bStep.symm, ?_⟩)
    rw [aTime, bTime]
    exact Int64.le_refl timestamp

theorem foldl_prefer_stays {keeps : Metric → Metric → Bool} {m : Metric} {after : List Metric}
    (stays : ∀ p ∈ after, keeps m p = true) : after.foldl (prefer keeps) (some m) = some m := by
  induction after with
  | nil => rfl
  | cons p rest ih =>
    rw [List.foldl_cons, prefer, if_pos (stays p List.mem_cons_self)]
    exact ih fun q member => stays q (List.mem_cons_of_mem p member)

theorem pick_snoc (keeps : Metric → Metric → Bool) (points : List Metric) (p : Metric) :
    pick keeps (points ++ [p]) = prefer keeps (pick keeps points) p := by
  rw [pick, pick, List.foldl_append]
  rfl

theorem pick_eq_none_iff (keeps : Metric → Metric → Bool) (points : List Metric) :
    pick keeps points = none ↔ points = [] := by
  cases points using List.reverseRecOn with
  | nil => exact iff_of_true rfl rfl
  | append_singleton earlier p =>
    rw [pick_snoc]
    cases best : pick keeps earlier with
    | none => simp [prefer]
    | some held => cases kept : keeps held p <;> simp [prefer, kept]

theorem mem_of_pick {keeps : Metric → Metric → Bool} {points : List Metric} {m : Metric}
    (picked : pick keeps points = some m) : m ∈ points := by
  induction points using List.reverseRecOn with
  | nil => contradiction
  | append_singleton earlier p ih =>
    rw [pick_snoc] at picked
    cases best : pick keeps earlier with
    | none => simp_all [prefer]
    | some held => cases kept : keeps held p <;> simp_all [prefer]

def latest? (points : List Metric) : Option Metric :=
  pick (fun held point => !held.notAfter point) points

theorem latestByKey_snoc (points : List Metric) (p : Metric) :
    latestByKey (points ++ [p]) = (latestByKey points).alter p.key fun held =>
      prefer (fun held point => !held.notAfter point) held p := by
  rw [latestByKey, List.foldl_append, List.foldl_cons, List.foldl_nil]
  congr 1
  funext held
  cases held with
  | none => rfl
  | some held => cases before : held.notAfter p <;> simp [prefer, before]

theorem getElem?_latestByKey (points : List Metric) (key : String) :
    (latestByKey points)[key]? = latest? (points.filter (·.key == key)) := by
  induction points using List.reverseRecOn with
  | nil => simp [latestByKey, latest?, pick]
  | append_singleton earlier p ih =>
    rw [latestByKey_snoc, Std.ExtTreeMap.getElem?_alter, List.filter_append]
    by_cases own : p.key = key
    · subst own
      have single : [p].filter (·.key == p.key) = [p] := by simp
      rw [ih, single, latest?, latest?, pick_snoc]
      simp
    · simp [own, ih]

theorem latest?_eq_none_iff (points : List Metric) : latest? points = none ↔ points = [] :=
  pick_eq_none_iff _ points

theorem mem_latestByKey_iff (points : List Metric) (key : String) :
    key ∈ latestByKey points ↔ ∃ p ∈ points, p.key = key := by
  rw [Std.ExtTreeMap.mem_iff_isSome_getElem?, getElem?_latestByKey, Option.isSome_iff_ne_none, ne_eq,
    latest?_eq_none_iff, List.filter_eq_nil_iff]
  simp

theorem pick_of_split {keeps : Metric → Metric → Bool} {before after : List Metric} {m : Metric}
    (beats : ∀ p ∈ before, keeps p m = false) (stays : ∀ p ∈ after, keeps m p = true) :
    pick keeps (before ++ m :: after) = some m := by
  have taken : pick keeps (before ++ [m]) = some m := by
    rw [pick_snoc]
    cases best : pick keeps before with
    | none => rfl
    | some held => simp only [prefer, beats held (mem_of_pick best), Bool.false_eq_true, ite_false]
  rw [← List.singleton_append, ← List.append_assoc, pick, List.foldl_append]
  exact (congrArg (after.foldl (prefer keeps)) taken).trans (foldl_prefer_stays stays)

/-- The picked point beats all before it and keeps its place against all after it, when the order
that decides is transitive and so is its complement. -/
theorem split_of_pick {keeps : Metric → Metric → Bool}
    (trans : ∀ a b c, keeps a b = true → keeps b c = true → keeps a c = true)
    (cotrans : ∀ a b c, keeps a b = false → keeps b c = false → keeps a c = false)
    {points : List Metric} {m : Metric} (picked : pick keeps points = some m) :
    ∃ before after, points = before ++ m :: after ∧
      (∀ p ∈ before, keeps p m = false) ∧ ∀ p ∈ after, keeps m p = true := by
  induction points using List.reverseRecOn generalizing m with
  | nil => contradiction
  | append_singleton earlier p ih =>
    rw [pick_snoc] at picked
    cases best : pick keeps earlier with
    | none =>
      rw [best] at picked
      obtain rfl : p = m := Option.some.inj picked
      exact ⟨[], [], by rw [(pick_eq_none_iff keeps earlier).mp best], by simp, by simp⟩
    | some held =>
      obtain ⟨before, after, split, beats, stays⟩ := ih best
      cases against : keeps held p with
      | true =>
        simp only [best, prefer, against, ite_true, Option.some.injEq] at picked
        subst picked
        refine ⟨before, after ++ [p], by simp [split], beats, ?_⟩
        intro q member
        rcases List.mem_append.mp member with old | new
        · exact stays q old
        · rw [List.mem_singleton.mp new]
          exact against
      | false =>
        simp only [best, prefer, against, Bool.false_eq_true, ite_false, Option.some.injEq] at picked
        subst picked
        refine ⟨earlier, [], rfl, ?_, by simp⟩
        intro q member
        rw [split] at member
        rcases List.mem_append.mp member with old | rest
        · exact cotrans q held p (beats q old) against
        · rcases List.mem_cons.mp rest with rfl | later
          · exact against
          · cases kept : keeps q p with
            | false => rfl
            | true => rw [← against, trans held q p (stays q later) kept]

theorem numbers_append (points rest : List Metric) :
    numbers (points ++ rest) = numbers points ++ numbers rest := List.filter_append points rest

theorem mem_numbers {points : List Metric} {p : Metric} :
    p ∈ numbers points ↔ p ∈ points ∧ p.value.isNaN = false := by
  rw [numbers, List.mem_filter, Bool.not_eq_true']

theorem numbers_eq_nil_iff (points : List Metric) :
    numbers points = [] ↔ points.all (·.value.isNaN) = true := by
  simp [numbers]

/-- A number of a history that beats those before it and keeps its place against those after it. -/
def Foremost (keeps : Metric → Metric → Bool) (points : List Metric) (m : Metric) : Prop :=
  ∃ before after, points = before ++ m :: after ∧ m.value.isNaN = false ∧
    (∀ p ∈ before, p.value.isNaN = false → keeps p m = false) ∧
    ∀ p ∈ after, p.value.isNaN = false → keeps m p = true

theorem pick_numbers_iff {keeps : Metric → Metric → Bool}
    (trans : ∀ a b c, keeps a b = true → keeps b c = true → keeps a c = true)
    (cotrans : ∀ a b c, keeps a b = false → keeps b c = false → keeps a c = false)
    (points : List Metric) (m : Metric) :
    pick keeps (numbers points) = some m ↔ Foremost keeps points m := by
  constructor
  · intro picked
    obtain ⟨before, after, split, beats, stays⟩ := split_of_pick trans cotrans picked
    obtain ⟨front, back, rfl, rfl, tail⟩ := List.filter_eq_append_iff.mp split
    obtain ⟨between, rest, rfl, skipped, number, rfl⟩ := List.filter_eq_cons_iff.mp tail
    refine ⟨front ++ between, rest, by rw [List.append_assoc], by simpa using number, ?_, ?_⟩
    · intro p member numeric
      rcases List.mem_append.mp member with early | late
      · exact beats p (mem_numbers.mpr ⟨early, numeric⟩)
      · have nan := skipped p late
        simp [numeric] at nan
    · intro p member numeric
      exact stays p (mem_numbers.mpr ⟨member, numeric⟩)
  · rintro ⟨before, after, rfl, number, beats, stays⟩
    have kept : numbers (before ++ m :: after) = numbers before ++ m :: numbers after := by
      rw [numbers_append]
      simp [numbers, number]
    rw [kept]
    apply pick_of_split
    · intro p member
      obtain ⟨early, numeric⟩ := mem_numbers.mp member
      exact beats p early numeric
    · intro p member
      obtain ⟨late, numeric⟩ := mem_numbers.mp member
      exact stays p late numeric

def FirstLeast (points : List Metric) (m : Metric) : Prop :=
  ∃ before after, points = before ++ m :: after ∧ m.value.isNaN = false ∧
    (∀ p ∈ before, p.value.isNaN = false → m.value.rank < p.value.rank) ∧
    ∀ p ∈ after, p.value.isNaN = false → m.value.rank ≤ p.value.rank

def LastGreatest (points : List Metric) (m : Metric) : Prop :=
  ∃ before after, points = before ++ m :: after ∧ m.value.isNaN = false ∧
    (∀ p ∈ before, p.value.isNaN = false → p.value.rank ≤ m.value.rank) ∧
    ∀ p ∈ after, p.value.isNaN = false → p.value.rank < m.value.rank

theorem least?_numbers_iff (points : List Metric) (m : Metric) :
    least? (numbers points) = some m ↔ FirstLeast points m := by
  unfold least?
  rw [pick_numbers_iff]
  · simp only [Foremost, FirstLeast, Binary64.totalLe, decide_eq_false_iff_not, Int.not_le,
      decide_eq_true_eq]
  all_goals
    intro a b c
    simp only [Binary64.totalLe, decide_eq_false_iff_not, decide_eq_true_eq]
    omega

theorem greatest?_numbers_iff (points : List Metric) (m : Metric) :
    greatest? (numbers points) = some m ↔ LastGreatest points m := by
  unfold greatest?
  rw [pick_numbers_iff]
  · simp only [Foremost, LastGreatest, Binary64.totalLe, Bool.not_eq_false',
      Bool.not_eq_true', decide_eq_false_iff_not, Int.not_le, decide_eq_true_eq]
  all_goals
    intro a b c
    simp only [Binary64.totalLe, Bool.not_eq_false', Bool.not_eq_true', decide_eq_false_iff_not,
      decide_eq_true_eq]
    omega

end RunBoard.Metric
