import RunBoard.Legend.Click
import RunBoard.Table

namespace RunBoard.Legend

structure Visibility where
  hidden : Table Unit
  deriving DecidableEq

namespace Visibility

def all : Visibility := { hidden := ∅ }

instance : Inhabited Visibility := ⟨all⟩

def isVisible (v : Visibility) (series : String) : Bool := !v.hidden.contains series

def hide (series : List String) : Visibility :=
  { hidden := Table.ofPairs (series.map fun key => (key, ())) }

/-- Applies a resolved click to a plot of `plotted` series. Isolating the only visible one shows all
again. -/
def apply (v : Visibility) (plotted : List String) : Change → Visibility
  | .toggle series =>
    if v.isVisible series then { hidden := v.hidden.insert series () }
    else { hidden := v.hidden.erase series }
  | .isolate series =>
    if plotted.all fun key => (key == series) == v.isVisible key then all
    else hide (plotted.filter (· != series))

end Visibility

end RunBoard.Legend
