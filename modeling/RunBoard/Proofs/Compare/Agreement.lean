import RunBoard.Proofs.Compare.Rows
import RunBoard.Proofs.Entities.LabelKeys
import RunBoard.Proofs.Entities.LatestKeys
import RunBoard.Proofs.Plot.Columns

namespace RunBoard

namespace Entities

def paramValue (s : Entities) (run key : String) : Option String :=
  ((s.paramsOf run).bind (·[key]?)).map (·.value)

def tagValue (s : Entities) (run key : String) : Option String :=
  ((s.tagsOf (.run run)).bind (·[key]?)).map (·.value)

def latestValue (s : Entities) (run key : String) : Option Binary64 :=
  (s.latest.lookIn run key).map (·.value)

end Entities

namespace Compare

open Plot PlotData

theorem getElem?_byKey {α β : Type} {table : Table (Table α)} {key : α → String}
    (keyed : table.PartsKeyed key) (run : String) (value : α → β) (field : String) :
    (Table.byKey key value (table[run]?.getD ∅).values)[field]? =
      (table.lookIn run field).map value := by
  have all : (table[run]?.getD ∅).values.filter (fun _ => true) = (table[run]?.getD ∅).values :=
    List.filter_eq_self.mpr fun _ _ => rfl
  have held := (keyed.part run).getElem?_byKey (fun _ => true) value field
  rw [all, Table.getElem?_part] at held
  exact held.trans (by cases table.lookIn run field <;> rfl)

theorem getElem?_paramsOf {s : Entities} (keyed : s.LabelsKeyed) (run key : String) :
    (paramsOf s run)[key]? = s.paramValue run key :=
  getElem?_byKey keyed.params run Label.value key

theorem isSystemTag_iff (key : String) : isSystemTag key = true ↔ "mlflow.".toList <+: key.toList :=
  List.isPrefixOf_iff_prefix

theorem getElem?_tagsOf {s : Entities} (keyed : s.LabelsKeyed) (run key : String) :
    (tagsOf s run)[key]? =
      if "mlflow.".toList <+: key.toList then none else s.tagValue run key := by
  have held := (keyed.runTags.part run).getElem?_byKey (fun tag => !isSystemTag tag.key) Label.value key
  rw [Table.getElem?_part] at held
  refine held.trans ?_
  simp only [← isSystemTag_iff]
  show _ = if isSystemTag key = true then none else (s.runTags.lookIn run key).map (·.value)
  cases found : s.runTags.lookIn run key with
  | none => simp
  | some tag =>
    rw [← keyed.runTags run key tag found]
    cases system : isSystemTag tag.key <;> simp [Option.filter, system]

theorem getElem?_metricsOf {s : Entities} (keyed : s.LatestKeyed) (run key : String) :
    (metricsOf s run)[key]? = (s.latestValue run key).map Binary64.toText := by
  rw [metricsOf, getElem?_byKey keyed, Entities.latestValue, Option.map_map]
  rfl

/-- A comparison and a plot of the same runs show what the entities hold, and both the same. -/
structure Faithful (s : Entities) (runs : List String) (table : Comparison) (plot : PlotData) :
    Prop where
  params : Tabulates table.params runs s.paramValue
  tags : Tabulates table.tags runs fun run key =>
    if "mlflow.".toList <+: key.toList then none else s.tagValue run key
  metrics : Tabulates table.metrics runs fun run key => (s.latestValue run key).map Binary64.toText
  paramKeys (key : String) : key ∈ plot.params ↔ key ∈ table.params.map (·.key)
  metricKeys (key : String) : key ∈ plot.metrics ↔ key ∈ table.metrics.map (·.key)
  paramCounts (key : String) (column : List (Option String)) :
    plot.params[key]? = some column → column.length = runs.length
  metricCounts (key : String) (column : List (Option Binary64)) :
    plot.metrics[key]? = some column → column.length = runs.length
  paramColumns : ∀ row ∈ table.params, plot.params[row.key]? = some row.values
  metricTexts : ∀ row ∈ table.metrics, plot.raw (.metric row.key) = row.values
  metricValues (key : String) : plot.numeric (.metric key) = runs.map (s.latestValue · key)

theorem charts_params {s : Entities} (keyed : s.LabelsKeyed) (runs : List String) :
    Charts (ofRuns s runs).params runs s.paramValue := by
  apply charts_columns
  intro run key
  exact getElem?_byKey keyed.params run Label.value key

theorem charts_metrics {s : Entities} (keyed : s.LatestKeyed) (runs : List String) :
    Charts (ofRuns s runs).metrics runs s.latestValue := by
  apply charts_columns
  intro run key
  exact getElem?_byKey keyed run Metric.value key

section

variable {β : Type} {rows : List Row} {columns : Table (List (Option β))} {runs : List String}
  {value : String → String → Option β} {text : β → String}

theorem mem_columns_iff (charts : Charts columns runs value)
    (table : Tabulates rows runs fun run key => (value run key).map text) (key : String) :
    key ∈ columns ↔ key ∈ rows.map (·.key) := by
  rw [charts.keys, table.keys]
  simp only [Option.isSome_map]

theorem column_of_row (charts : Charts columns runs value)
    (table : Tabulates rows runs fun run key => (value run key).map text) {row : Row}
    (member : row ∈ rows) : columns[row.key]? = some (runs.map (value · row.key)) := by
  have shown := (mem_columns_iff charts table row.key).mpr (List.mem_map_of_mem member)
  obtain ⟨column, held⟩ := Option.isSome_iff_exists.mp
    (Std.ExtTreeMap.mem_iff_isSome_getElem?.mp shown)
  rw [held, charts.values held]

end

theorem faithful {s : Entities} (labels : s.LabelsKeyed) (points : s.LatestKeyed)
    (runs : List String) :
    Faithful s runs (compareRuns s runs) (ofRuns s runs) := by
  have params : Tabulates (compareRuns s runs).params runs fun run key =>
      (s.paramValue run key).map id := by
    apply tabulates_rows
    intro run key
    rw [getElem?_paramsOf labels, Option.map_id_apply]
  have metrics : Tabulates (compareRuns s runs).metrics runs fun run key =>
      (s.latestValue run key).map Binary64.toText :=
    tabulates_rows (getElem?_metricsOf points)
  have paramCharts := charts_params labels runs
  have metricCharts := charts_metrics points runs
  exact {
    params := tabulates_rows (getElem?_paramsOf labels)
    tags := tabulates_rows (getElem?_tagsOf labels)
    metrics
    paramKeys := mem_columns_iff paramCharts params
    metricKeys := mem_columns_iff metricCharts metrics
    paramCounts := by
      intro key column held
      rw [paramCharts.values held, List.length_map]
    metricCounts := by
      intro key column held
      rw [metricCharts.values held, List.length_map]
    paramColumns := by
      intro row member
      rw [column_of_row paramCharts params member, params.values row member]
      simp only [Option.map_id_apply]
    metricTexts := by
      intro row member
      simp only [raw, column_of_row metricCharts metrics member, List.map_map,
        metrics.values row member]
      rfl
    metricValues := metricCharts.getD }

/-- After every log whose histories are made of points of their own metrics, and for any runs, known
or not and in any number: the rows of the comparison are what the entities hold, system tags apart,
and the plot has the same keys and values in its columns. -/
theorem comparisons_show_entities (log : List Action) (own : ∀ a ∈ log, a.BringsOwnPoints)
    (runs : List String) :
    Faithful (Entities.after log) runs (compareRuns (Entities.after log) runs)
      (ofRuns (Entities.after log) runs) :=
  faithful (Entities.labelsKeyed_after log) (Entities.latestKeyed_after log own) runs

theorem repeated_run_fills_each_place :
    let one : Binary64 := .ofMagnitude false (1023 * Binary64.binade)
    let two : Binary64 := .ofMagnitude false (1024 * Binary64.binade)
    let loss (value : Binary64) (step : Int64) : Metric := { key := "loss", value, timestamp := 0, step }
    let run (uuid : String) (data : RunData) : Run := { info := .new uuid "0" .running, data }
    let page : RunPage := {
      runs := [
        run "a" ⟨[⟨"rate", "0.1"⟩], [⟨"team", "x"⟩, ⟨"mlflow.user", "u"⟩], [loss one 0]⟩,
        run "b" ⟨[⟨"rate", "0.2"⟩, ⟨"depth", "3"⟩], [], []⟩]
      nextPageToken := none }
    let log : List Action := [
      ⟨none, .searchRuns, .fulfilled page⟩,
      ⟨none, .getMetricHistory "b" "loss", .fulfilled [loss two 1]⟩]
    let runs := ["a", "gone", "b", "a"]
    let s := Entities.after log
    (∀ a ∈ log, a.BringsOwnPoints) ∧ Faithful s runs (compareRuns s runs) (ofRuns s runs) ∧
      (compareRuns s runs).tags.map (·.key) = ["team"] ∧
      (ofRuns s runs).numeric (.metric "loss") = [some one, none, some two, some one] := by
  intro one two loss run page log runs s
  have own : ∀ a ∈ log, a.BringsOwnPoints := by
    intro a member
    rcases List.mem_cons.mp member with rfl | other
    · intro uuid key points brought
      contradiction
    · rw [List.mem_singleton.mp other]
      apply (Action.bringsOwnPoints_getMetricHistory_iff ..).mpr
      intro p listed
      rw [List.mem_singleton.mp listed]
  have shown := comparisons_show_entities log own runs
  refine ⟨own, shown, by decide +kernel, ?_⟩
  rw [shown.metricValues]
  decide +kernel

end Compare

end RunBoard
