import RunBoard.Yaml.Cursor
import RunBoard.Text.Quoted

namespace RunBoard.Yaml

abbrev Tag := List UInt8

namespace Tag

def ofAscii (chars : List Char) : Tag := chars.map fun c => .ofNat c.toNat

def integer : Tag := ofAscii "tag:yaml.org,2002:int".toList

def isTagChar (c : Char) : Bool := isWordChar c || ";/?:@&=+$.%!~*'()".toList.contains c

def isFullTagChar (c : Char) : Bool := isTagChar c || c = ',' || c = '[' || c = ']'

def following? (first : UInt8) : Option Nat :=
  if first < 0x80 then some 0
  else if first < 0xC0 then none
  else if first < 0xE0 then some 1
  else if first < 0xF0 then some 2
  else if first < 0xF8 then some 3
  else none

def goesOn (octet : UInt8) : Bool := 0x80 ≤ octet && octet < 0xC0

/-- The octets that tag characters stand for. The first `owed` of them go on a character, which is
escaped as a whole. -/
def octets? : Nat → List Char → Option (List UInt8)
  | 0, [] => some []
  | _ + 1, [] => none
  | owed, '%' :: high :: low :: rest => do
    let octet : UInt8 := .ofNat (16 * (← Text.hexValue? high) + (← Text.hexValue? low))
    let owed ← match owed with
      | 0 => following? octet
      | n + 1 => if goesOn octet then some n else none
    return octet :: (← octets? owed rest)
  | 0, c :: rest =>
    if c = '%' then none else (octets? 0 rest).map (.ofNat c.toNat :: ·)
  | _ + 1, _ => none

def ofChars? (chars : List Char) : Option Tag := (octets? 0 chars).map (·.takeWhile (· ≠ 0))

structure Written where
  handle : String
  ending : Tag
  deriving DecidableEq, Inhabited

/-- A tag from its exclamation mark on, with the place after it. It may stand in angle brackets,
follow a handle, or belong to the handle of one mark; that mark alone is a tag of its own. -/
def scan? (c : Cursor) : Option (Written × Cursor) :=
  match c.rest with
  | '!' :: '<' :: rest =>
    let name := rest.takeWhile isFullTagChar
    if name.isEmpty || (rest.drop name.length).head? != some '>' then none
    else (ofChars? name).map fun ending => (⟨"", ending⟩, c.skip (name.length + 3))
  | '!' :: rest =>
    let word := rest.takeWhile isWordChar
    match rest.drop word.length with
    | '!' :: after =>
      let name := after.takeWhile isTagChar
      if name.isEmpty then none
      else (ofChars? name).map fun ending =>
        (⟨String.ofList ('!' :: word ++ ['!']), ending⟩, c.skip (word.length + 2 + name.length))
    | _ =>
      let name := rest.takeWhile isTagChar
      (ofChars? name).map fun ending =>
        (if ending.isEmpty then ⟨"", ofAscii ['!']⟩ else ⟨"!", ending⟩, c.skip (1 + name.length))
  | _ => none

def scanHandle? (c : Cursor) : Option (String × Tag × Cursor) :=
  let c := c.skipWhile isBlank
  match c.rest with
  | '!' :: rest =>
    let word := rest.takeWhile isWordChar
    let closed := (rest.drop word.length).head? == some '!'
    if !closed && !word.isEmpty then none
    else
      let handle := '!' :: word ++ (if closed then ['!'] else [])
      let c := c.skip handle.length
      if !(c.rest.head?.any isBlank) then none
      else
        let c := c.skipWhile isBlank
        let name := c.rest.takeWhile isFullTagChar
        let c := c.skip name.length
        if name.isEmpty || !endsWord c.rest then none
        else (ofChars? name).map fun start => (String.ofList handle, start, c)
  | _ => none

end Tag

end RunBoard.Yaml
