import RunBoard.Poll.Poller
import RunBoard.Proofs.Entities.LatestPoints

namespace RunBoard.Poll

instance lawfulOrderLeftLeaningMax_int64 : Std.LawfulOrderLeftLeaningMax Int64 where
  max_eq_left a b after := by
    by_cases before : a ≤ b
    · rw [Int64.le_antisymm before after]
      exact ite_self b
    · exact if_neg before
  max_eq_right a b before := if_pos (Int64.le_of_lt (Int64.not_le.mp before))

def IsRecent (now threshold : Int) (p : Metric) : Prop := now - p.timestamp.toInt ≤ threshold

instance (now threshold : Int) (p : Metric) : Decidable (IsRecent now threshold p) :=
  inferInstanceAs (Decidable (_ ≤ _))

theorem latestTimestamp_eq (s : Entities) (run : String) :
    s.latestTimestamp run = ((s.latest[run]?.getD ∅).values.map (·.timestamp)).max? := by
  rw [Entities.latestTimestamp]
  cases s.latest[run]? <;> rfl

theorem isHanging_eq_false_iff (s : Entities) (run : String) (now threshold : Int) :
    isHanging (s.latestTimestamp run) now threshold = false ↔
      (∀ key, s.latest.lookIn run key = none) ∨
        ∃ key m, s.latest.lookIn run key = some m ∧ IsRecent now threshold m := by
  simp only [latestTimestamp_eq, ← Table.getElem?_part]
  generalize s.latest[run]?.getD ∅ = part
  cases latest : (part.values.map (·.timestamp)).max? with
  | none =>
    have bare : part.values = [] := List.map_eq_nil_iff.mp (List.max?_eq_none_iff.mp latest)
    refine iff_of_true rfl (.inl fun key => ?_)
    cases held : part[key]? with
    | none => rfl
    | some m =>
      have listed := (part.mem_values_iff m).mpr ⟨key, held⟩
      rw [bare] at listed
      contradiction
  | some time =>
    obtain ⟨member, bound⟩ := List.max?_eq_some_iff.mp latest
    obtain ⟨m, listed, rfl⟩ := List.mem_map.mp member
    obtain ⟨key, held⟩ := (part.mem_values_iff m).mp listed
    rw [isHanging, Option.any_some, decide_eq_false_iff_not, Int.not_lt]
    constructor
    · intro recent
      exact .inr ⟨key, m, held, recent⟩
    · rintro (none | ⟨other, p, found, recent⟩)
      · rw [none key] at held
        contradiction
      · have later := bound p.timestamp
          (List.mem_map.mpr ⟨p, (part.mem_values_iff p).mpr ⟨other, found⟩, rfl⟩)
        rw [Int64.le_iff_toInt_le] at later
        rw [IsRecent] at recent
        omega

theorem isActive_iff (s : Entities) (now threshold : Int) (run : String) :
    isActive s now threshold run = true ↔
      ∃ info, s.runs[run]? = some info ∧ info.status.isTerminal = false ∧
        ((∀ key, s.latest.lookIn run key = none) ∨
          ∃ key m, s.latest.lookIn run key = some m ∧ IsRecent now threshold m) := by
  rw [isActive, Option.any_eq_true]
  simp only [Bool.and_eq_true, Bool.not_eq_true', isHanging_eq_false_iff]

theorem mem_activeRuns_iff (s : Entities) (runs : List String) (now threshold : Int) (run : String) :
    run ∈ activeRuns s runs now threshold ↔
      run ∈ runs ∧ ∃ info, s.runs[run]? = some info ∧ info.status.isTerminal = false ∧
        ((∀ key, s.latest.lookIn run key = none) ∨
          ∃ key m, s.latest.lookIn run key = some m ∧ IsRecent now threshold m) := by
  rw [activeRuns, List.mem_filter, isActive_iff]

/-- The latest point is recent exactly when some point with the greatest step is. -/
theorem isRecent_latest_iff {points : List Metric} {m : Metric} (latest : Metric.IsLatest points m)
    (now threshold : Int) :
    IsRecent now threshold m ↔
      ∃ p ∈ points, (∀ q ∈ points, q.step ≤ p.step) ∧ IsRecent now threshold p := by
  obtain ⟨bound, -⟩ := (Metric.isLatest_iff points m).mp latest
  constructor
  · intro recent
    refine ⟨m, latest.mem, fun q member => ?_, recent⟩
    rcases bound q member with step | ⟨step, -⟩
    · exact Int64.le_of_lt step
    · exact Int64.le_of_eq step
  · rintro ⟨p, member, greatest, recent⟩
    have top := greatest m latest.mem
    have order := bound p member
    simp only [IsRecent, Int64.lt_iff_toInt_lt, Int64.le_iff_toInt_le, ← Int64.toInt_inj] at *
    omega

theorem lookIn_latest_after_history (s : Entities) (id : Option RequestId) (run key : String)
    (points : List Metric) (field : String) :
    (s.step ⟨id, .getMetricHistory run key, .fulfilled points⟩).latest.lookIn run field =
      if key = field then Metric.latest? points else s.latest.lookIn run field := by
  have found := s.lookIn_latest_replaceHistory run key points run field
  simp only [true_and] at found
  exact found

/-- After a history has arrived for a run that can still log, the run is active exactly when a point
with the greatest step of the history is recent, or the latest point of another metric is, or the run
has no points at all. -/
theorem active_after_history_iff (s : Entities) (id : Option RequestId) {run : String}
    {info : RunInfo} (known : s.runs[run]? = some info) (live : info.status.isTerminal = false)
    {runs : List String} (listed : run ∈ runs) (key : String) (points : List Metric)
    (now threshold : Int) :
    run ∈ activeRuns (s.step ⟨id, .getMetricHistory run key, .fulfilled points⟩) runs now threshold ↔
      (∃ p ∈ points, (∀ q ∈ points, q.step ≤ p.step) ∧ IsRecent now threshold p) ∨
        (∃ other m, other ≠ key ∧ s.latest.lookIn run other = some m ∧ IsRecent now threshold m) ∨
        points = [] ∧ ∀ other, other ≠ key → s.latest.lookIn run other = none := by
  have looked := lookIn_latest_after_history s id run key points
  rw [mem_activeRuns_iff]
  simp only [looked]
  constructor
  · rintro ⟨-, -, -, -, none | ⟨field, m, held, recent⟩⟩
    · refine .inr (.inr ⟨?_, fun other apart => ?_⟩)
      · have own := none key
        rwa [if_pos rfl, Metric.latest?_eq_none_iff] at own
      · have rest := none other
        rwa [if_neg (Ne.symm apart)] at rest
    · by_cases same : key = field
      · rw [if_pos same, Metric.latest?_eq_some_iff] at held
        exact .inl ((isRecent_latest_iff held now threshold).mp recent)
      · rw [if_neg same] at held
        exact .inr (.inl ⟨field, m, Ne.symm same, held, recent⟩)
  · intro logging
    refine ⟨listed, info, known, live, ?_⟩
    rcases logging with ⟨p, member, top⟩ | ⟨other, m, apart, held, recent⟩ | ⟨rfl, none⟩
    · cases found : Metric.latest? points with
      | none =>
        rw [(Metric.latest?_eq_none_iff points).mp found] at member
        contradiction
      | some m =>
        have latest := (Metric.latest?_eq_some_iff points m).mp found
        exact .inr ⟨key, m, if_pos rfl,
          (isRecent_latest_iff latest now threshold).mpr ⟨p, member, top⟩⟩
    · exact .inr ⟨other, m, (if_neg (Ne.symm apart)).trans held, recent⟩
    · refine .inl fun field => ?_
      by_cases same : key = field
      · exact if_pos same
      · exact (if_neg same).trans (none field (Ne.symm same))

theorem active_after_last_step :
    let info := RunInfo.new "live" "0" .running
    let s := Entities.empty.step ⟨none, .getRun "live", .fulfilled ⟨info, .none⟩⟩
    let points : List Metric := [⟨"loss", default, 95, 7⟩, ⟨"loss", default, 60, 7⟩,
      ⟨"loss", default, 20, 3⟩]
    (s.runs["live"]? = some info ∧ info.status.isTerminal = false ∧ "live" ∈ ["done", "live"]) ∧
      "live" ∈ activeRuns (s.step ⟨none, .getMetricHistory "live" "loss", .fulfilled points⟩)
        ["done", "live"] 100 10 := by
  intro info s points
  have known : s.runs["live"]? = some info := by decide +kernel
  have live : info.status.isTerminal = false := rfl
  have listed : "live" ∈ ["done", "live"] := by decide
  refine ⟨⟨known, live, listed⟩, ?_⟩
  exact (active_after_history_iff s none known live listed "loss" points 100 10).mpr
    (.inl (by decide +kernel))

/-- Steps that start again hide the point just logged: the run is dropped. -/
theorem restarted_steps_hide_recent_point :
    let info := RunInfo.new "live" "0" .running
    let s := Entities.empty.step ⟨none, .getRun "live", .fulfilled ⟨info, .none⟩⟩
    let points : List Metric := [⟨"loss", default, 0, 100⟩, ⟨"loss", default, 95, 1⟩]
    (s.runs["live"]? = some info ∧ info.status.isTerminal = false) ∧
      (∃ p ∈ points, IsRecent 100 10 p) ∧
      "live" ∉ activeRuns (s.step ⟨none, .getMetricHistory "live" "loss", .fulfilled points⟩)
        ["live"] 100 10 := by
  intro info s points
  have latest : Metric.latest? points = some ⟨"loss", default, 0, 100⟩ := by decide +kernel
  refine ⟨⟨by decide +kernel, rfl⟩, by decide +kernel, fun active => ?_⟩
  obtain ⟨-, -, -, -, none | ⟨field, m, held, recent⟩⟩ := (mem_activeRuns_iff ..).mp active
  · have own := none "loss"
    rw [lookIn_latest_after_history, if_pos rfl, latest] at own
    contradiction
  · rw [lookIn_latest_after_history, latest] at held
    split at held
    · cases held
      exact absurd recent (by decide)
    · have bare : s.latest.lookIn "live" field = none := Entities.empty.lookIn_latest_putRun _ "live" field
      rw [bare] at held
      contradiction

end RunBoard.Poll
