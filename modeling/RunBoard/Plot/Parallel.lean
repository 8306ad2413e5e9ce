import RunBoard.Plot.Data

namespace RunBoard.Plot

inductive DimensionValues where
  | numeric (values : List Binary64) (low high : Binary64)
  | categorical (values : List Nat) (labels : List String)
  deriving DecidableEq, Inhabited

structure Dimension where
  label : String
  values : DimensionValues
  deriving DecidableEq, Inhabited

/-- The first three shared params and the first shared metric. -/
def defaultSelection (d : PlotData) : List String × List String :=
  (d.sharedParamKeys.take 3, d.sharedMetricKeys.take 1)

/-- A range ignores NaN; without numbers it is empty, from infinity to negative infinity. -/
def numericValues (numbers : List Binary64) : DimensionValues :=
  .numeric numbers (numbers.foldl Binary64.lesser .infinity)
    (numbers.foldl Binary64.greater .negInfinity)

def placeOf? (labels : Array String) (text : String) (low high : Nat) (bound : high ≤ labels.size) :
    Option Nat :=
  if left : low < high then
    let middle := low + (high - low) / 2
    let label := labels[middle]
    if label = text then some middle
    else if label < text then placeOf? labels text (middle + 1) high bound
    else placeOf? labels text low middle (by omega)
  else none
termination_by high - low

def labelPlace (labels : List String) (text : String) : Nat :=
  (placeOf? labels.toArray text 0 labels.toArray.size (Nat.le_refl _)).getD 0

def categoricalValues (texts : List String) : DimensionValues :=
  let labels := (Table.ofPairs (texts.map fun text => (text, ()))).keys
  .categorical (texts.map (labelPlace labels)) labels

def dimensionValues (texts : List String) : DimensionValues :=
  match texts.mapM Compare.numberOf? with
  | some numbers => numericValues numbers
  | none => categoricalValues texts

def completePlaces (columns : List (List (Option String))) (count : Nat) :
    Except OutOfRange (List Nat) :=
  (List.range count).filterM fun i => columns.allM fun column => return (← entryAt column i).isSome

def parallelCoordinates (d : PlotData) (params metrics : List String) :
    Except OutOfRange (List Dimension) := do
  let keys := params.map AxisKey.param ++ metrics.map AxisKey.metric
  let columns := keys.map d.raw
  let complete ← completePlaces columns d.runs.length
  (keys.zip columns).mapM fun (key, column) => do
    let texts ← complete.mapM (entryAt column)
    return { label := key.name, values := dimensionValues (texts.filterMap id) }

end RunBoard.Plot
