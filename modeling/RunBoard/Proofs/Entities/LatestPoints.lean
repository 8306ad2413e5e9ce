import RunBoard.Proofs.Entities.MetricReplay
import RunBoard.Proofs.Metric.Latest

namespace RunBoard.Entities

theorem lookIn_latest_putRun (s : Entities) (run : Run) (uuid key : String) :
    (s.putRun run).latest.lookIn uuid key =
      if run.info.uuid = uuid then Metric.latest? (run.data.metrics.filter (·.key == key))
      else s.latest.lookIn uuid key := by
  rw [← Metric.getElem?_latestByKey]
  exact Table.lookIn_insert s.latest run.info.uuid uuid key (Metric.latestByKey run.data.metrics)

theorem lookIn_latest_replaceHistory (s : Entities) (run key : String) (points : List Metric)
    (uuid field : String) :
    (s.replaceHistory run key points).latest.lookIn uuid field =
      if run = uuid ∧ key = field then Metric.latest? points else s.latest.lookIn uuid field := by
  rw [← Metric.getLast?_inOrder]
  exact lookIn_setOrDrop s.latest run key uuid field (Metric.inOrder points).getLast?

/-- After an answer with a run, its latest points have the keys of the points in the answer. Each is the
one that the history of its metric gives from the same points: the last of those that come last in the
order of step and time. -/
theorem run_and_history_agree (s other : Entities) (id otherId : Option RequestId) (asked : String)
    (run : Run) :
    let uuid := run.info.uuid
    let points := run.data.metrics
    let fetched := s.step ⟨id, .getRun asked, .fulfilled run⟩
    (∃ table, fetched.latest[uuid]? = some table ∧
        ∀ key, key ∈ table ↔ ∃ p ∈ points, p.key = key) ∧
      ∀ key,
        let own := points.filter (·.key == key)
        let followed := other.step ⟨otherId, .getMetricHistory uuid key, .fulfilled own⟩
        fetched.latest.lookIn uuid key = followed.latest.lookIn uuid key ∧
          ∀ m, fetched.latest.lookIn uuid key = some m ↔ Metric.IsLatest own m := by
  intro uuid points fetched
  refine ⟨⟨Metric.latestByKey points, ?_, Metric.mem_latestByKey_iff points⟩, fun key => ?_⟩
  · exact Std.ExtTreeMap.getElem?_insert_self
  · intro own followed
    have fromRun : fetched.latest.lookIn uuid key = Metric.latest? own :=
      (lookIn_latest_putRun s run uuid key).trans (if_pos rfl)
    have fromHistory : followed.latest.lookIn uuid key = Metric.latest? own :=
      (lookIn_latest_replaceHistory other uuid key own uuid key).trans (if_pos ⟨rfl, rfl⟩)
    refine ⟨fromRun.trans fromHistory.symm, fun m => ?_⟩
    rw [fromRun, Metric.latest?_eq_some_iff]

end RunBoard.Entities
