import RunBoard.Json.Value
import RunBoard.Number.Reading
import RunBoard.Text.Quoted

namespace RunBoard.Json

def isSpace (c : Char) : Bool := c = ' ' || c = '\t' || c = '\n' || c = '\r'

def skipSpace (text : List Char) : List Char := text.dropWhile isSpace

def word? (word : List Char) (text : List Char) : Option (List Char) := word.isPrefixOf? text

def hex4? : List Char → Option (Nat × List Char)
  | a :: b :: c :: d :: rest => do
    let high := 16 * (← Text.hexValue? a) + (← Text.hexValue? b)
    let low := 16 * (← Text.hexValue? c) + (← Text.hexValue? d)
    return (256 * high + low, rest)
  | _ => none

/-- The character after `\u`: a high surrogate needs a low one after it. -/
def escapedUnit? (text : List Char) : Option (Char × List Char) := do
  let (unit, rest) ← hex4? text
  if 0xD800 ≤ unit && unit < 0xDC00 then
    let '\\' :: 'u' :: after := rest | none
    let (low, rest) ← hex4? after
    if 0xDC00 ≤ low && low < 0xE000 then
      return (Char.ofNat (0x10000 + (unit - 0xD800) * 0x400 + (low - 0xDC00)), rest)
    else none
  else if 0xDC00 ≤ unit && unit < 0xE000 then none
  else return (Char.ofNat unit, rest)

def escaped? : List Char → Option (Char × List Char)
  | '"' :: rest => some ('"', rest)
  | '\\' :: rest => some ('\\', rest)
  | '/' :: rest => some ('/', rest)
  | 'b' :: rest => some ('\x08', rest)
  | 'f' :: rest => some ('\x0c', rest)
  | 'n' :: rest => some ('\n', rest)
  | 'r' :: rest => some ('\r', rest)
  | 't' :: rest => some ('\t', rest)
  | 'u' :: rest => escapedUnit? rest
  | _ => none

def string? : Nat → List Char → List Char → Option (String × List Char)
  | 0, _, _ => none
  | fuel + 1, read, text =>
    match text with
    | [] => none
    | '"' :: rest => some (String.ofList read.reverse, rest)
    | '\\' :: rest =>
      match escaped? rest with
      | some (c, rest) => string? fuel (c :: read) rest
      | none => none
    | c :: rest => if c.toNat < 0x20 then none else string? fuel (c :: read) rest

def whole? (text : List Char) : Option (List Char × List Char) :=
  match Binary64.spanDigits text with
  | ([], _) => none
  | ('0' :: _ :: _, _) => none
  | found => some found

def places? : List Char → Option (List Char × List Char)
  | '.' :: rest =>
    match Binary64.spanDigits rest with
    | ([], _) => none
    | found => some found
  | text => some ([], text)

def power? (text : List Char) : Option (Option Int × List Char) :=
  match text with
  | c :: rest =>
    if c = 'e' || c = 'E' then
      let (negative, rest) := Binary64.splitSign rest
      match Binary64.spanDigits rest with
      | ([], _) => none
      | (digits, rest) =>
        let size : Int := Binary64.digitsValue digits
        some (some (if negative then -size else size), rest)
    else some (none, text)
  | [] => some (none, text)

def number? (text : List Char) : Option (Json × List Char) := do
  let (negative, text) := match text with
    | '-' :: rest => (true, rest)
    | _ => (false, text)
  let (whole, rest) ← whole? text
  let (places, rest) ← places? rest
  let (power, rest) ← power? rest
  let digits := Binary64.digitsValue (whole ++ places)
  if places.isEmpty && power.isNone && !(negative && digits = 0) &&
      digits < (if negative then UInt64.size / 2 + 1 else UInt64.size) then
    return (int (if negative then -(digits : Int) else digits), rest)
  let x := Binary64.ofDecimal negative digits (power.getD 0 - places.length)
  if x.isFinite then return (num x, rest) else none

mutual

def value? : Nat → List Char → Option (Json × List Char)
  | 0, _ => none
  | fuel + 1, text =>
    match skipSpace text with
    | [] => none
    | 'n' :: rest => (word? "ull".toList rest).map fun rest => (null, rest)
    | 't' :: rest => (word? "rue".toList rest).map fun rest => (bool true, rest)
    | 'f' :: rest => (word? "alse".toList rest).map fun rest => (bool false, rest)
    | '"' :: rest => (string? (rest.length + 1) [] rest).map fun (s, rest) => (str s, rest)
    | '[' :: rest =>
      match skipSpace rest with
      | ']' :: rest => some (arr [], rest)
      | rest => (items? fuel rest []).map fun (items, rest) => (arr items, rest)
    | '\x7b' :: rest =>
      match skipSpace rest with
      | '\x7d' :: rest => some (obj [], rest)
      | rest => (members? fuel rest []).map fun (members, rest) => (ofMembers members, rest)
    | text => number? text

def items? : Nat → List Char → List Json → Option (List Json × List Char)
  | 0, _, _ => none
  | fuel + 1, text, read =>
    match value? fuel text with
    | none => none
    | some (item, rest) =>
      match skipSpace rest with
      | ',' :: rest => items? fuel rest (item :: read)
      | ']' :: rest => some ((item :: read).reverse, rest)
      | _ => none

def members? : Nat → List Char → List (String × Json) → Option (List (String × Json) × List Char)
  | 0, _, _ => none
  | fuel + 1, text, read =>
    match skipSpace text with
    | '"' :: rest =>
      match string? (rest.length + 1) [] rest with
      | none => none
      | some (name, rest) =>
        match skipSpace rest with
        | ':' :: rest =>
          match value? fuel rest with
          | none => none
          | some (value, rest) =>
            match skipSpace rest with
            | ',' :: rest => members? fuel rest ((name, value) :: read)
            | '\x7d' :: rest => some (((name, value) :: read).reverse, rest)
            | _ => none
        | _ => none
    | _ => none

end

/-- Every nested value starts further right, so the length bounds the depth. -/
def parse? (text : String) : Option Json :=
  let chars := text.toList
  match value? (chars.length + 1) chars with
  | some (value, rest) => if (skipSpace rest).isEmpty then some value else none
  | none => none

end RunBoard.Json
