import RunBoard.Number.Reading
import RunBoard.Table

namespace RunBoard

namespace Text

/-- The characters with the Unicode property `White_Space`. -/
def isBlank (c : Char) : Bool :=
  let n := c.toNat
  (9 ≤ n && n ≤ 13) || n = 0x20 || n = 0x85 || n = 0xA0 || n = 0x1680 ||
    (0x2000 ≤ n && n ≤ 0x200A) || n = 0x2028 || n = 0x2029 || n = 0x202F || n = 0x205F || n = 0x3000

def trimChars (text : List Char) : List Char :=
  ((text.dropWhile isBlank).reverse.dropWhile isBlank).reverse

def trim (text : String) : String := String.ofList (trimChars text.toList)

end Text

namespace Compare

def numberOf? (text : String) : Option Binary64 := Binary64.ofText? (Text.trim text)

/-- Order by number; a key that is none counts as NaN. -/
def numericLe (a b : String) : Bool :=
  ((numberOf? a).getD (.nan false)).totalLe ((numberOf? b).getD (.nan false))

def textLe (a b : String) : Bool := a ≤ b

def sortKeys (keys : List String) : List String :=
  if keys.all fun key => (numberOf? key).isSome then keys.mergeSort numericLe
  else keys.mergeSort textLe

/-- Neighbours that disagree under `agree`; a missing value agrees with a missing one only. -/
def differBy {α : Type} (agree : α → α → Bool) : List (Option α) → Bool
  | some a :: some b :: rest => !agree a b || differBy agree (some b :: rest)
  | none :: none :: rest => differBy agree (none :: rest)
  | _ :: _ :: _ => true
  | _ => false

def textsDiffer : List (Option String) → Bool := differBy (· == ·)

def numbersDiffer : List (Option Binary64) → Bool := differBy Binary64.same

structure Row where
  key : String
  values : List (Option String)
  diff : Bool
  deriving DecidableEq, Inhabited

def allKeys {β : Type} (tables : List (Table β)) : List String :=
  (tables.foldl (fun union table => union.insertMany (table.keys.map fun key => (key, ())))
    (∅ : Table Unit)).keys

def row (tables : List (Table String)) (key : String) : Row :=
  let values := tables.map (·[key]?)
  { key, values, diff := textsDiffer values }

def rows (tables : List (Table String)) : List Row := (sortKeys (allKeys tables)).map (row tables)

end Compare

end RunBoard
