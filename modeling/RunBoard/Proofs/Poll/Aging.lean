import Mathlib.Data.List.Basic
import RunBoard.Proofs.Poll.Staleness

namespace RunBoard.Poll

/-- A run that is known and in no terminal status, with no latest point or with a recent one. -/
def StillLogs (s : Entities) (now threshold : Int) (run : String) : Prop :=
  ∃ info, s.runs[run]? = some info ∧ info.status.isTerminal = false ∧
    ((∀ key, s.latest.lookIn run key = none) ∨
      ∃ key m, s.latest.lookIn run key = some m ∧ now - m.timestamp.toInt ≤ threshold)

instance (s : Entities) (now threshold : Int) : DecidablePred (StillLogs s now threshold) :=
  fun run => decidable_of_iff _ (isActive_iff s now threshold run)

theorem StillLogs.earlier {s : Entities} {now later threshold lower : Int} {run : String}
    (forward : now ≤ later) (stricter : lower ≤ threshold) (logs : StillLogs s later lower run) :
    StillLogs s now threshold run := by
  obtain ⟨info, known, live, bare | ⟨key, m, held, recent⟩⟩ := logs
  · exact ⟨info, known, live, .inl bare⟩
  · have still : now - m.timestamp.toInt ≤ threshold := by omega
    exact ⟨info, known, live, .inr ⟨key, m, held, still⟩⟩

theorem activeRuns_eq_filter (s : Entities) (runs : List String) (now threshold : Int) :
    activeRuns s runs now threshold = runs.filter (StillLogs s now threshold ·) := by
  rw [activeRuns]
  apply List.filter_congr
  intro run _
  rw [Bool.eq_iff_iff, decide_eq_true_iff]
  exact isActive_iff s now threshold run

theorem activeRuns_sublist (s : Entities) (runs : List String) {now later threshold lower : Int}
    (forward : now ≤ later) (stricter : lower ≤ threshold) :
    (activeRuns s runs later lower).Sublist (activeRuns s runs now threshold) := by
  rw [activeRuns_eq_filter, activeRuns_eq_filter]
  apply List.monotone_filter_right
  intro run logs
  rw [decide_eq_true_iff] at logs ⊢
  exact logs.earlier forward stricter

/-- The active runs are those listed that still log, as often and in the order as they are listed. In
the same store a later look under no greater threshold finds some of them at most, and none when there
were none. -/
theorem active_runs_only_fade (s : Entities) (runs : List String) :
    (∀ now threshold, activeRuns s runs now threshold = runs.filter (StillLogs s now threshold ·)) ∧
      ∀ now later threshold lower, now ≤ later → lower ≤ threshold →
        (activeRuns s runs later lower).Sublist (activeRuns s runs now threshold) ∧
          (activeRuns s runs now threshold = [] → activeRuns s runs later lower = []) := by
  refine ⟨activeRuns_eq_filter s runs, ?_⟩
  intro now later threshold lower forward stricter
  have fewer := activeRuns_sublist s runs forward stricter
  refine ⟨fewer, fun idle => ?_⟩
  rw [idle] at fewer
  exact List.sublist_nil.mp fewer

theorem active_runs_only_fade_mixed :
    let known (uuid : String) (status : RunStatus) : String × RunInfo :=
      (uuid, RunInfo.new uuid "0" status)
    let point (uuid : String) (time : Int64) : String × Table Metric :=
      (uuid, Table.ofPairs [("loss", ⟨"loss", default, time, 1⟩)])
    let s := { Entities.empty with
      runs := Table.ofPairs [known "bare" .scheduled, known "done" .finished, known "ahead" .running,
        known "live" .running]
      latest := Table.ofPairs [point "done" 99, point "ahead" 500, point "live" 95] }
    let runs := ["live", "unknown", "ahead", "done", "live", "bare"]
    ((100 : Int) ≤ 104 ∧ (8 : Int) ≤ 10) ∧
      activeRuns s runs 100 10 = ["live", "ahead", "live", "bare"] ∧
      activeRuns s runs 104 8 = ["ahead", "bare"] ∧
      (activeRuns s runs 104 8).Sublist (activeRuns s runs 100 10) := by
  intro known point s runs
  have forward : (100 : Int) ≤ 104 := by decide
  have stricter : (8 : Int) ≤ 10 := by decide
  refine ⟨⟨forward, stricter⟩, by decide +kernel, by decide +kernel, ?_⟩
  exact ((active_runs_only_fade s runs).2 100 104 10 8 forward stricter).1

end RunBoard.Poll
