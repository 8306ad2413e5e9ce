namespace RunBoard.Legend

inductive Change where
  | toggle (series : String)
  | isolate (series : String)
  deriving DecidableEq, Inhabited

/-- Times are in one unit, counted from a fixed instant. -/
structure Held where
  series : String
  time : Int
  deriving DecidableEq, Inhabited

def Held.elapsed (h : Held) (now : Int) : Nat := (now - h.time).toNat

structure Resolver where
  window : Nat
  held : Option Held
  deriving DecidableEq, Inhabited

namespace Resolver

def new (window : Nat) : Resolver := { window, held := none }

/-- A click, with what it settles: a double click of the held series, or the held click of another
time or series. -/
def click (r : Resolver) (series : String) (now : Int) : List Change × Resolver :=
  let fresh : Resolver := { r with held := some { series, time := now } }
  match r.held with
  | some h =>
    if h.series = series ∧ h.elapsed now ≤ r.window then
      ([.isolate h.series], { r with held := none })
    else ([.toggle h.series], fresh)
  | none => ([], fresh)

def poll (r : Resolver) (now : Int) : Option Change × Resolver :=
  match r.held with
  | some h =>
    if r.window < h.elapsed now then (some (.toggle h.series), { r with held := none })
    else (none, r)
  | none => (none, r)

def deadline (r : Resolver) : Option Int := r.held.map fun h => h.time + r.window

end Resolver

end RunBoard.Legend
