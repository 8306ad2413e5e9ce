import RunBoard.Proofs.Entities.LatestPoints
import RunBoard.Proofs.Table.Keyed

namespace RunBoard

/-- A history that the action brings has points of the requested metric only. -/
def Action.BringsOwnPoints (a : Action) : Prop :=
  ∀ run key points, a.history? run key = some points → ∀ p ∈ points, p.key = key

theorem Action.bringsOwnPoints_getMetricHistory_iff (id : Option RequestId) (run key : String)
    (points : List Metric) :
    BringsOwnPoints ⟨id, .getMetricHistory run key, .fulfilled points⟩ ↔ ∀ p ∈ points, p.key = key := by
  constructor
  · intro own
    exact own run key points (by simp [history?])
  · intro own uuid field brought
    simp only [history?]
    split
    · rename_i here
      rintro ⟨⟩
      rw [← here.2]
      exact own
    · intro nothing
      contradiction

namespace Entities

def LatestKeyed (s : Entities) : Prop := s.latest.PartsKeyed Metric.key

theorem LatestKeyed.putRun {s : Entities} (held : s.LatestKeyed) (run : Run) :
    (s.putRun run).LatestKeyed := by
  intro uuid key p found
  rw [lookIn_latest_putRun] at found
  split at found
  · exact eq_of_beq (List.mem_filter.mp (Metric.mem_of_pick found)).2
  · exact held uuid key p found

theorem LatestKeyed.putRuns {s : Entities} (held : s.LatestKeyed) (runs : List Run) :
    (runs.foldl Entities.putRun s).LatestKeyed := by
  induction runs generalizing s with
  | nil => exact held
  | cons run rest ih => exact ih (held.putRun run)

theorem LatestKeyed.replaceHistory {s : Entities} (held : s.LatestKeyed) (run : String)
    {key : String} {points : List Metric} (own : ∀ p ∈ points, p.key = key) :
    (s.replaceHistory run key points).LatestKeyed := by
  intro uuid field p found
  rw [lookIn_latest_replaceHistory] at found
  split at found
  · rename_i here
    rw [own p (Metric.mem_of_pick found), here.2]
  · exact held uuid field p found

theorem LatestKeyed.next {s next : Entities} {a : Action} (held : s.LatestKeyed)
    (own : a.BringsOwnPoints) (change : s.Change a next) : next.LatestKeyed := by
  cases change with
  | getRun id asked run => exact held.putRun run
  | searchRuns id page =>
    have opened : LatestKeyed { s with runs := ∅ } := held
    exact opened.putRuns page.runs
  | loadMoreRuns id page => exact held.putRuns page.runs
  | getMetricHistory id run key points =>
    exact held.replaceHistory run ((Action.bringsOwnPoints_getMetricHistory_iff ..).mp own)
  | _ => exact held

theorem latestKeyed_after (log : List Action) (own : ∀ a ∈ log, a.BringsOwnPoints) :
    (after log).LatestKeyed := by
  revert own
  refine replay_induction (P := fun log s => (∀ a ∈ log, a.BringsOwnPoints) → s.LatestKeyed) ?_ ?_ log
  · intro _ run key p found
    simp [Table.lookIn, empty] at found
  · intro earlier a s held own
    have before := held fun b member => own b (List.mem_append_left [a] member)
    exact before.next (own a (by simp)) (s.change_step a)

end Entities

end RunBoard
