import RunBoard.Number.Binary64

namespace RunBoard.Binary64

/-- The reals that round to a positive number, in quarter units of its last place: each field times
`2 ^ exponent`. -/
structure RoundingInterval where
  low : Nat
  value : Nat
  high : Nat
  exponent : Int
  closed : Bool

def roundingInterval (x : Binary64) : RoundingInterval :=
  let biased : Nat := x.magnitude / binade
  let fraction := x.magnitude % binade
  let m := if biased = 0 then fraction else binade + fraction
  let q : Int := ((max biased 1 : Nat) : Int) - 1075
  let half := if fraction = 0 && 1 < biased then 1 else 2
  { low := 4 * m - half, value := 4 * m, high := 4 * m + 2, exponent := q - 2, closed := m % 2 = 0 }

/-- Powers of two and ten moved to one side: `a * 2 ^ exponent` against `b * 10 ^ place` compares as
`a * scale.1` against `b * scale.2`. -/
def RoundingInterval.scale (r : RoundingInterval) (place : Int) : Nat × Nat :=
  (Nat.pow 2 r.exponent.toNat * Nat.pow 10 (-place).toNat,
    Nat.pow 2 (-r.exponent).toNat * Nat.pow 10 place.toNat)

def RoundingInterval.holds (r : RoundingInterval) (digits : Nat) (place : Int) : Bool :=
  let (ours, theirs) := r.scale place
  let point := digits * theirs
  let low := r.low * ours
  let high := r.high * ours
  if r.closed then low ≤ point && point ≤ high else low < point && point < high

/-- The nearest multiple of `10 ^ place` that rounds to the number; of two at one distance the
upper. -/
def RoundingInterval.onGrid? (r : RoundingInterval) (place : Int) : Option Nat :=
  let (ours, theirs) := r.scale place
  let point := r.value * ours
  let floor := point / theirs
  let lower := r.holds floor place
  let upper := r.holds (floor + 1) place
  if lower && upper then
    some (if 2 * (point - floor * theirs) < theirs then floor else floor + 1)
  else if lower then some floor
  else if upper then some (floor + 1)
  else none

def RoundingInterval.search (r : RoundingInterval) (place : Int) : Nat → Nat × Int
  | 0 => (0, place)
  | grids + 1 =>
    match r.onGrid? place with
    | some digits => (digits, place)
    | none => r.search (place - 1) grids

def gridAbove (bits : Int) : Int := (bits * 30103).tdiv 100000 + 1

def shortest (x : Binary64) : Nat × Int :=
  let r := x.roundingInterval
  r.search (gridAbove (r.exponent + r.high.log2 + 1)) 24

def positional (digits : Nat) (place : Int) : String :=
  let written := toString digits
  if 0 ≤ place then written ++ String.ofList (List.replicate place.toNat '0')
  else
    let places := (-place).toNat
    let padded := List.replicate (places + 1 - written.length) '0' ++ written.toList
    let whole := padded.length - places
    String.ofList (padded.take whole ++ '.' :: padded.drop whole)

def toText (x : Binary64) : String :=
  if x.isNaN then "NaN"
  else
    let sign := if x.isNegative then "-" else ""
    if !x.isFinite then sign ++ "inf"
    else if x.isZero then sign ++ "0"
    else
      let (digits, place) := x.shortest
      sign ++ positional digits place

end RunBoard.Binary64
