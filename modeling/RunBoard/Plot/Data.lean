import RunBoard.Compare.Comparison

namespace RunBoard.Plot

structure OutOfRange where
  place : Nat
  length : Nat
  deriving DecidableEq, Inhabited

def entryAt {α : Type} (items : List α) (place : Nat) : Except OutOfRange α :=
  match items[place]? with
  | some item => .ok item
  | none => .error { place, length := items.length }

inductive AxisKey where
  | param (key : String)
  | metric (key : String)
  deriving DecidableEq, Inhabited

def AxisKey.name : AxisKey → String
  | param key => key
  | metric key => key

structure PlotData where
  runs : List String
  params : Table (List (Option String))
  metrics : Table (List (Option Binary64))
  deriving Inhabited

namespace PlotData

/-- Writes a value of the run at an index into the column of its key. A key that is new has a blank
column of `count` runs. -/
def write {β : Type} (count index : Nat) (columns : Table (List (Option β)))
    (entry : String × β) : Table (List (Option β)) :=
  columns.alter entry.1 fun column =>
    some ((column.getD (List.replicate count none)).set index (some entry.2))

def columns {β : Type} (entries : List (List (String × β))) : Table (List (Option β)) :=
  entries.zipIdx.foldl (fun columns run => run.1.foldl (write entries.length run.2) columns) ∅

def ofRuns (s : Entities) (runs : List String) : PlotData where
  runs := runs
  params := columns (runs.map fun run =>
    ((s.paramsOf run).getD ∅).values.map fun param => (param.key, param.value))
  metrics := columns (runs.map fun run =>
    (s.latest[run]?.getD ∅).values.map fun point => (point.key, point.value))

def paramKeys (d : PlotData) : List String := Compare.sortKeys d.params.keys

def metricKeys (d : PlotData) : List String := Compare.sortKeys d.metrics.keys

def isShared {β : Type} (columns : Table (List (Option β))) (key : String) : Bool :=
  (columns[key]?.getD []).all Option.isSome

def sharedParamKeys (d : PlotData) : List String := d.paramKeys.filter (isShared d.params)

def sharedMetricKeys (d : PlotData) : List String := d.metricKeys.filter (isShared d.metrics)

def blankColumn {β : Type} (d : PlotData) : List (Option β) := d.runs.map fun _ => none

def raw (d : PlotData) : AxisKey → List (Option String)
  | .param key => d.params[key]?.getD d.blankColumn
  | .metric key =>
    match d.metrics[key]? with
    | some column => column.map (·.map Binary64.toText)
    | none => d.blankColumn

/-- Values as numbers; a param that is no number has none. -/
def numeric (d : PlotData) : AxisKey → List (Option Binary64)
  | .param key =>
    match d.params[key]? with
    | some column => column.map (·.bind Compare.numberOf?)
    | none => d.blankColumn
  | .metric key => d.metrics[key]?.getD d.blankColumn

end PlotData

end RunBoard.Plot
