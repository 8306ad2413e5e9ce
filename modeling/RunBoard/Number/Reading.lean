import RunBoard.Number.Binary64

namespace RunBoard.Binary64

def digitsValue (digits : List Char) : Nat :=
  digits.foldl (fun value c => 10 * value + (c.toNat - '0'.toNat)) 0

def spanDigits (text : List Char) : List Char × List Char :=
  (text.takeWhile Char.isDigit, text.dropWhile Char.isDigit)

def splitSign : List Char → Bool × List Char
  | '-' :: rest => (true, rest)
  | '+' :: rest => (false, rest)
  | text => (false, text)

/-- The number nearest to `digits * 10 ^ place`. Far out of range the power is not computed. -/
def ofDecimal (negative : Bool) (digits : Nat) (place : Int) : Binary64 :=
  let top := place + (toString digits).length
  if digits = 0 || top < -330 then ofMagnitude negative 0
  else if 310 < top then ofMagnitude negative infinityBits
  else if 0 ≤ place then ofQuotient negative (digits * Nat.pow 10 place.toNat) 1
  else ofQuotient negative digits (Nat.pow 10 (-place).toNat)

def exponent? : List Char → Option Int
  | [] => some 0
  | c :: rest =>
    if c = 'e' || c = 'E' then
      let (negative, digits) := splitSign rest
      if digits.isEmpty || !digits.all Char.isDigit then none
      else some (if negative then -(digitsValue digits : Int) else digitsValue digits)
    else none

def unsignedDecimal? (negative : Bool) (text : List Char) : Option Binary64 :=
  let (whole, rest) := spanDigits text
  let (places, rest) := match rest with
    | '.' :: after => spanDigits after
    | _ => ([], rest)
  if whole.isEmpty && places.isEmpty then none
  else (exponent? rest).map fun e =>
    ofDecimal negative (digitsValue (whole ++ places)) (e - places.length)

def named? (negative : Bool) (text : List Char) : Option Binary64 :=
  match String.ofList (text.map Char.toLower) with
  | "inf" | "infinity" => some (ofMagnitude negative infinityBits)
  | "nan" => some (nan negative)
  | _ => none

def ofText? (text : String) : Option Binary64 :=
  let (negative, rest) := splitSign text.toList
  (named? negative rest).or (unsignedDecimal? negative rest)

end RunBoard.Binary64
