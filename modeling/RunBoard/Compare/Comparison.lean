import RunBoard.Compare.Rows
import RunBoard.Entities.Select
import RunBoard.Number.Shortest

namespace RunBoard.Compare

/-- Tags under this start of a key are the tracking client's own. -/
def systemTagStart : String := "mlflow."

def isSystemTag (key : String) : Bool := systemTagStart.toList.isPrefixOf key.toList

def paramsOf (s : Entities) (run : String) : Table String :=
  .byKey Label.key Label.value ((s.paramsOf run).getD ∅).values

def tagsOf (s : Entities) (run : String) : Table String :=
  .byKey Label.key Label.value
    (((s.tagsOf (.run run)).getD ∅).values.filter fun tag => !isSystemTag tag.key)

def metricsOf (s : Entities) (run : String) : Table String :=
  .byKey Metric.key (·.value.toText) (s.latest[run]?.getD ∅).values

inductive Section where
  | params
  | tags
  | metrics
  deriving DecidableEq, Inhabited

structure Comparison where
  runs : List String
  params : List Row
  tags : List Row
  metrics : List Row
  deriving DecidableEq, Inhabited

def compareRuns (s : Entities) (runs : List String) : Comparison where
  runs := runs
  params := rows (runs.map (paramsOf s))
  tags := rows (runs.map (tagsOf s))
  metrics := rows (runs.map (metricsOf s))

def Comparison.rowsOf (c : Comparison) (part : Section) (diffOnly : Bool) : List Row :=
  let all := match part with
    | .params => c.params
    | .tags => c.tags
    | .metrics => c.metrics
  all.filter fun row => !diffOnly || row.diff

end RunBoard.Compare
