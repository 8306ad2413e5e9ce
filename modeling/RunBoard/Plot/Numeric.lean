import RunBoard.Plot.Data

namespace RunBoard.Plot

structure Point where
  run : String
  x : Binary64
  y : Binary64
  deriving DecidableEq, Inhabited

/-- The first param, or the first metric without params, against the first other key, metrics
before params. -/
def defaultScatterAxes (paramKeys metricKeys : List String) : Option (AxisKey × AxisKey) := do
  let params := paramKeys.map AxisKey.param
  let metrics := metricKeys.map AxisKey.metric
  let x ← params.head?.or metrics.head?
  let y ← (metrics ++ params).find? (· != x)
  return (x, y)

def scatterPoints (d : PlotData) (x y : AxisKey) : List Point :=
  (d.runs.zip ((d.numeric x).zip (d.numeric y))).filterMap fun
    | (run, some x, some y) => some { run, x, y }
    | _ => none

inductive Axis where
  | x
  | y
  deriving DecidableEq, Inhabited

def Axis.name : Axis → String
  | x => "X"
  | y => "Y"

structure ContourAxes where
  x : AxisKey
  y : AxisKey
  z : AxisKey
  deriving DecidableEq, Inhabited

def axisAt (axis : String → AxisKey) (keys : List String) (place : Nat) :
    Except OutOfRange AxisKey := return axis (← entryAt keys place)

/-- Two params and a metric as far as there are enough of either, nothing with less than three keys. -/
def defaultContourAxes (params metrics : List String) : Except OutOfRange (Option ContourAxes) := do
  let param := axisAt .param params
  let metric := axisAt .metric metrics
  if params.length + metrics.length < 3 then return none
  else if params.isEmpty then return some { x := ← metric 0, y := ← metric 1, z := ← metric 2 }
  else if metrics.isEmpty then return some { x := ← param 0, y := ← param 1, z := ← param 2 }
  else if params.length = 1 then return some { x := ← param 0, y := ← metric 0, z := ← metric 1 }
  else return some { x := ← param 0, y := ← param 1, z := ← metric 0 }

structure Sample where
  run : String
  x : Binary64
  y : Binary64
  z : Binary64
  deriving DecidableEq, Inhabited

inductive ContourPlot where
  | disabled
  | insufficient (axis : Axis)
  | ready (runs : List String) (x y z : List Binary64)
  deriving DecidableEq, Inhabited

def sample? (run : String) : Option Binary64 → Option Binary64 → Option Binary64 → Option Sample
  | some x, some y, some z => some { run, x, y, z }
  | _, _, _ => none

def samples (d : PlotData) (axes : ContourAxes) : Except OutOfRange (List Sample) := do
  let xs := d.numeric axes.x
  let ys := d.numeric axes.y
  let zs := d.numeric axes.z
  let found ← d.runs.zipIdx.mapM fun entry => do
    return sample? entry.1 (← entryAt xs entry.2) (← entryAt ys entry.2) (← entryAt zs entry.2)
  return found.filterMap id

def dropRepeats : List Binary64 → List Binary64
  | a :: b :: rest => if a.same b then dropRepeats (a :: rest) else a :: dropRepeats (b :: rest)
  | rest => rest

/-- How many different numbers there are; every NaN counts. -/
def distinctCount (numbers : List Binary64) : Nat :=
  (dropRepeats (numbers.mergeSort Binary64.totalLe)).length

def ContourPlot.ofSamples (found : List Sample) : ContourPlot :=
  let x := found.map (·.x)
  let y := found.map (·.y)
  if distinctCount x < 2 then .insufficient .x
  else if distinctCount y < 2 then .insufficient .y
  else .ready (found.map (·.run)) x y (found.map (·.z))

/-- A choice of axes replaces the default one, but both need three keys. -/
def contourPlot (d : PlotData) (chosen : Option ContourAxes) : Except OutOfRange ContourPlot := do
  match ← defaultContourAxes d.paramKeys d.metricKeys with
  | none => return .disabled
  | some axes => return .ofSamples (← samples d (chosen.getD axes))

def contourDisabledMessage : String :=
  "Contour plots can only be rendered when comparing a group of runs with three or more unique " ++
  "metrics or params. Log more metrics or params to your runs to visualize them using the " ++
  "contour plot."

def insufficientMessage (axis : Axis) : String :=
  axis.name ++ " axis doesn't have enough unique data points"

end RunBoard.Plot
