import RunBoard.Proofs.Entities.Log
import RunBoard.Proofs.Entities.Parts
import RunBoard.Proofs.Metric.Points

namespace RunBoard

def Action.history? (run key : String) : Action → Option (List Metric)
  | ⟨_, _, .pending⟩ | ⟨_, _, .rejected _⟩ => none
  | ⟨_, .getMetricHistory uuid metric, .fulfilled points⟩ =>
    if uuid = run ∧ metric = key then some points else none
  | _ => none

def lastHistory (run key : String) (log : List Action) : Option (List Metric) :=
  (log.filterMap (Action.history? run key)).getLast?

theorem lastHistory_snoc (run key : String) (log : List Action) (a : Action) :
    lastHistory run key (log ++ [a]) = (a.history? run key).or (lastHistory run key log) :=
  getLast?_filterMap_snoc _ _ _

namespace Entities

theorem lookIn_setOrDrop {β : Type} (table : Table (Table β)) (owner key other field : String)
    (value : Option β) :
    (setOrDrop table owner key value).lookIn other field =
      if owner = other ∧ key = field then value else table.lookIn other field := by
  cases value with
  | none => exact Table.lookIn_dropFrom table owner key other field
  | some value => exact Table.lookIn_putIn table owner key other field value

theorem noEmptyPart_setOrDrop {β : Type} {table : Table (Table β)} (full : table.NoEmptyPart)
    (owner key : String) (value : Option β) : (setOrDrop table owner key value).NoEmptyPart := by
  cases value with
  | none => exact full.dropFrom owner key
  | some value => exact full.putIn owner key value

structure SameSummaries (s next : Entities) : Prop where
  histories : next.histories = s.histories
  lowest : next.lowest = s.lowest
  highest : next.highest = s.highest

theorem sameSummaries_putRuns (runs : List Run) (s : Entities) :
    SameSummaries s (runs.foldl putRun s) := by
  rw [foldl_putRun]
  exact ⟨rfl, rfl, rfl⟩

theorem Change.summaries {s next : Entities} {a : Action} (change : s.Change a next) :
    (∃ run key points, (∀ r k, a.history? r k = if run = r ∧ key = k then some points else none) ∧
        next = s.replaceHistory run key points) ∨
      ((∀ r k, a.history? r k = none) ∧ SameSummaries s next) := by
  cases change with
  | getMetricHistory id run key points => exact .inl ⟨run, key, points, fun _ _ => rfl, rfl⟩
  | searchRuns id page =>
    have filled := sameSummaries_putRuns page.runs { s with runs := ∅ }
    exact .inr ⟨fun _ _ => rfl, filled.histories, filled.lowest, filled.highest⟩
  | loadMoreRuns id page =>
    have filled := sameSummaries_putRuns page.runs s
    exact .inr ⟨fun _ _ => rfl, filled.histories, filled.lowest, filled.highest⟩
  | _ => exact .inr ⟨fun _ _ => rfl, rfl, rfl, rfl⟩

structure MetricReplay (log : List Action) (s : Entities) : Prop where
  history (run key : String) :
    s.histories.lookIn run key = (lastHistory run key log).map Metric.inOrder
  lowest (run key : String) :
    s.lowest.lookIn run key =
      (s.histories.lookIn run key).bind fun points => Metric.least? (Metric.numbers points)
  highest (run key : String) :
    s.highest.lookIn run key =
      (s.histories.lookIn run key).bind fun points => Metric.greatest? (Metric.numbers points)
  lowestParts : s.lowest.NoEmptyPart
  highestParts : s.highest.NoEmptyPart

theorem metricReplay_empty : MetricReplay [] .empty where
  history run key := by simp [Table.lookIn, empty, lastHistory]
  lowest run key := by simp [Table.lookIn, empty]
  highest run key := by simp [Table.lookIn, empty]
  lowestParts := .empty
  highestParts := .empty

theorem MetricReplay.next {log : List Action} {s next : Entities} {a : Action}
    (held : MetricReplay log s) (change : s.Change a next) : MetricReplay (log ++ [a]) next := by
  rcases change.summaries with ⟨run, key, points, brings, rfl⟩ | ⟨brings, same⟩
  · exact {
      history := by
        intro r k
        simp only [replaceHistory, Table.lookIn_putIn, lastHistory_snoc, brings, held.history]
        split <;> rfl
      lowest := by
        intro r k
        simp only [replaceHistory, Table.lookIn_putIn, lookIn_setOrDrop, held.lowest]
        split <;> rfl
      highest := by
        intro r k
        simp only [replaceHistory, Table.lookIn_putIn, lookIn_setOrDrop, held.highest]
        split <;> rfl
      lowestParts := noEmptyPart_setOrDrop held.lowestParts run key _
      highestParts := noEmptyPart_setOrDrop held.highestParts run key _ }
  · exact {
      history := by
        intro r k
        rw [same.histories, lastHistory_snoc, brings, Option.none_or, held.history]
      lowest := by
        intro r k
        rw [same.lowest, same.histories, held.lowest]
      highest := by
        intro r k
        rw [same.highest, same.histories, held.highest]
      lowestParts := same.lowest ▸ held.lowestParts
      highestParts := same.highest ▸ held.highestParts }

theorem metricReplay_replay (log : List Action) : MetricReplay log (after log) := by
  apply replay_induction metricReplay_empty
  intro log a s held
  exact held.next (s.change_step a)

theorem MetricReplay.lowest_iff {log : List Action} {s : Entities} (held : MetricReplay log s)
    (run key : String) (m : Metric) :
    s.lowest.lookIn run key = some m ↔
      ∃ history, s.histories.lookIn run key = some history ∧ Metric.FirstLeast history m := by
  rw [held.lowest, Option.bind_eq_some_iff]
  simp only [Metric.least?_numbers_iff]

theorem MetricReplay.highest_iff {log : List Action} {s : Entities} (held : MetricReplay log s)
    (run key : String) (m : Metric) :
    s.highest.lookIn run key = some m ↔
      ∃ history, s.histories.lookIn run key = some history ∧ Metric.LastGreatest history m := by
  rw [held.highest, Option.bind_eq_some_iff]
  simp only [Metric.greatest?_numbers_iff]

theorem bind_pick_eq_none_iff (history : Option (List Metric)) (keeps : Metric → Metric → Bool) :
    (history.bind fun points => Metric.pick keeps (Metric.numbers points)) = none ↔
      (history.getD []).all (·.value.isNaN) = true := by
  cases history with
  | none => exact iff_of_true rfl rfl
  | some points => exact (Metric.pick_eq_none_iff keeps _).trans (Metric.numbers_eq_nil_iff points)

/-- After every log, the history of a run's metric is the last one that arrived, stably sorted. Its
lowest point is the first number with the least value and its highest point the last number with the
greatest; both are missing exactly when it holds no number, and no run has an empty table of them. -/
theorem replay_metric_summaries (log : List Action) (run key : String) :
    (match lastHistory run key log with
      | none => (after log).histories.lookIn run key = none
      | some points => ∃ history,
        (after log).histories.lookIn run key = some history ∧
          Metric.StableSort points history) ∧
      (∀ m, (after log).lowest.lookIn run key = some m ↔
        ∃ history, (after log).histories.lookIn run key = some history ∧
          Metric.FirstLeast history m) ∧
      (∀ m, (after log).highest.lookIn run key = some m ↔
        ∃ history, (after log).histories.lookIn run key = some history ∧
          Metric.LastGreatest history m) ∧
      ((after log).lowest.lookIn run key = none ↔
        (((after log).histories.lookIn run key).getD []).all (·.value.isNaN) = true) ∧
      ((after log).highest.lookIn run key = none ↔
        (((after log).histories.lookIn run key).getD []).all (·.value.isNaN) = true) ∧
      (after log).lowest[run]? ≠ some ∅ ∧
      (after log).highest[run]? ≠ some ∅ := by
  have held := metricReplay_replay log
  refine ⟨?_, held.lowest_iff run key, held.highest_iff run key, ?_, ?_, ?_, ?_⟩
  · have history := held.history run key
    split
    · rename_i absent
      rw [history, absent]
      rfl
    · rename_i points last
      rw [history, last]
      exact ⟨Metric.inOrder points, rfl, Metric.inOrder_stableSort points⟩
  · rw [held.lowest]
    exact bind_pick_eq_none_iff _ _
  · rw [held.highest]
    exact bind_pick_eq_none_iff _ _
  · exact fun bare => held.lowestParts run ∅ bare rfl
  · exact fun bare => held.highestParts run ∅ bare rfl

end Entities

end RunBoard
