namespace RunBoard

/-- The bits tell apart both zeros and every NaN, which the total order needs. -/
structure Binary64 where
  bits : UInt64
  deriving DecidableEq, Inhabited

namespace Binary64

def binade : Nat := 4503599627370496

def infinityBits : Nat := 2047 * binade

def signBit : Nat := 9223372036854775808

def isNegative (x : Binary64) : Bool := signBit ≤ x.bits.toNat

def magnitude (x : Binary64) : Nat := x.bits.toNat % signBit

def isNaN (x : Binary64) : Bool := infinityBits < x.magnitude

def isFinite (x : Binary64) : Bool := x.magnitude < infinityBits

def isZero (x : Binary64) : Bool := x.magnitude = 0

def ofMagnitude (negative : Bool) (magnitude : Nat) : Binary64 :=
  ⟨.ofNat (if negative then signBit + magnitude else magnitude)⟩

def infinity : Binary64 := ofMagnitude false infinityBits

def negInfinity : Binary64 := ofMagnitude true infinityBits

def nan (negative : Bool) : Binary64 := ofMagnitude negative (infinityBits + binade / 2)

/-- Place in the total order: negative NaNs first, then the numbers with `-0` below `0`, then the
positive NaNs. -/
def rank (x : Binary64) : Int :=
  if x.isNegative then -(x.magnitude : Int) - 1 else x.magnitude

def totalLe (x y : Binary64) : Bool := x.rank ≤ y.rank

def position (x : Binary64) : Int :=
  if x.isNegative then -(x.magnitude : Int) else x.magnitude

/-- Numerical equality: a NaN equals nothing, and `-0` equals `0`. -/
def same (x y : Binary64) : Bool := !x.isNaN && !y.isNaN && x.position == y.position

def below (x y : Binary64) : Bool := !x.isNaN && !y.isNaN && x.position < y.position

def lesser (x y : Binary64) : Binary64 :=
  if x.isNaN then y else if y.isNaN then x else if x.below y then x else y

def greater (x y : Binary64) : Binary64 :=
  if x.isNaN then y else if y.isNaN then x else if y.below x then x else y

theorem rank_injective {x y : Binary64} (ranks : x.rank = y.rank) : x = y := by
  have hx := x.bits.toNat_lt
  have hy := y.bits.toNat_lt
  have patterns : x.bits.toNat = y.bits.toNat := by
    by_cases xneg : signBit ≤ x.bits.toNat <;> by_cases yneg : signBit ≤ y.bits.toNat <;>
      simp only [rank, isNegative, magnitude, xneg, yneg, decide_true, decide_false, reduceIte,
        Bool.false_eq_true] at ranks <;> unfold signBit at * <;> omega
  cases x
  cases y
  exact congrArg Binary64.mk (UInt64.toNat_inj.mp patterns)

theorem totalLe_total (x y : Binary64) : (x.totalLe y || y.totalLe x) = true := by
  simp only [totalLe, Bool.or_eq_true, decide_eq_true_eq]
  omega

theorem totalLe_trans (x y z : Binary64) (xy : x.totalLe y = true) (yz : y.totalLe z = true) :
    x.totalLe z = true := by
  simp only [totalLe, decide_eq_true_eq] at *
  omega

theorem totalLe_antisymm {x y : Binary64} (xy : x.totalLe y = true) (yx : y.totalLe x = true) :
    x = y := by
  simp only [totalLe, decide_eq_true_eq] at xy yx
  exact rank_injective (Int.le_antisymm xy yx)

def roundHalfEven (num den : Nat) : Nat :=
  let whole := num / den
  let twice := 2 * (num % den)
  if twice < den then whole
  else if den < twice then whole + 1
  else whole + whole % 2

def unitExponent (num den : Nat) : Int :=
  let estimate : Int := (num.log2 : Int) - den.log2
  let reached := if 0 ≤ estimate then den * Nat.pow 2 estimate.toNat ≤ num
    else den ≤ num * Nat.pow 2 (-estimate).toNat
  max (estimate - if reached then 52 else 53) (-1074)

/-- The number nearest to the quotient, a half to the even pattern; beyond the finite range it is
infinity. -/
def ofQuotient (negative : Bool) (num den : Nat) : Binary64 :=
  if num = 0 then ofMagnitude negative 0
  else
    let q := unitExponent num den
    let m := if 0 ≤ q then roundHalfEven num (den * Nat.pow 2 q.toNat)
      else roundHalfEven (num * Nat.pow 2 (-q).toNat) den
    ofMagnitude negative (min ((q + 1074).toNat * binade + m) infinityBits)

def ofInt (n : Int) : Binary64 := ofQuotient (n < 0) n.natAbs 1

end Binary64

end RunBoard
