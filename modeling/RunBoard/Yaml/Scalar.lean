import RunBoard.Yaml.Cursor
import RunBoard.Text.Quoted

namespace RunBoard.Yaml

inductive ScalarStyle where
  | plain
  | singleQuoted
  | doubleQuoted
  | literal
  | folded
  deriving DecidableEq, Inhabited

def isFlowMark (c : Char) : Bool := c = ',' || c = '[' || c = ']' || c = '\x7b' || c = '\x7d'

namespace Plain

/-- The characters of a plain scalar up to a blank, a colon that ends a word, or, inside brackets, a
flow mark. Inside brackets a colon must not touch such a mark. -/
def word? (inFlow : Bool) : List Char → Option (List Char)
  | [] => some []
  | c :: rest =>
    if isBlank c || isBreak c then some []
    else if inFlow && c = ':' && (rest.head?.any fun d => isFlowMark d || d = '?') then none
    else if (c = ':' && endsWord rest) || (inFlow && isFlowMark c) then some []
    else (word? inFlow rest).map (c :: ·)

structure Read where
  text : List Char
  gap : Gap

def words? (inFlow : Bool) (limit : Nat) : Nat → Read → Option Read
  | 0, r => some r
  | fuel + 1, r =>
    let here := r.gap.after
    if here.startsDocumentMark || here.rest.head? == some '#' then some r
    else do
      let word ← word? inFlow here.rest
      let r : Read :=
        if word.isEmpty then r
        else { text := r.text ++ r.gap.text ++ word, gap := .start (here.skip word.length) }
      let blank := r.gap.after.rest.head?.any fun c => isBlank c || isBreak c
      if !blank then return r
      let gap ← r.gap.read? limit
      let r := { r with gap }
      if !inFlow && gap.after.column < limit then return r
      words? inFlow limit fuel r

def scan? (inFlow : Bool) (limit : Nat) (c : Cursor) : Option Read :=
  words? inFlow limit c.rest.length { text := [], gap := .start c }

end Plain

namespace Quoted

def coded? (digits : Nat) (text : List Char) : Option (Char × Nat) := do
  if text.length < digits then none
  else
    let values ← (text.take digits).mapM Text.hexValue?
    let n := values.foldl (fun n d => 16 * n + d) 0
    if n.isValidChar then some (Char.ofNat n, digits + 1) else none

def escape? : List Char → Option (Char × Nat)
  | [] => none
  | c :: rest =>
    match c with
    | '0' => some ('\x00', 1)
    | 'a' => some ('\x07', 1)
    | 'b' => some ('\x08', 1)
    | 't' => some ('\t', 1)
    | '\t' => some ('\t', 1)
    | 'n' => some ('\n', 1)
    | 'v' => some ('\x0b', 1)
    | 'f' => some ('\x0c', 1)
    | 'r' => some ('\r', 1)
    | 'e' => some ('\x1b', 1)
    | ' ' => some (' ', 1)
    | '"' => some ('"', 1)
    | '/' => some ('/', 1)
    | '\\' => some ('\\', 1)
    | 'N' => some ('\u0085', 1)
    | '_' => some ('\u00a0', 1)
    | 'L' => some ('\u2028', 1)
    | 'P' => some ('\u2029', 1)
    | 'x' => coded? 2 rest
    | 'u' => coded? 4 rest
    | 'U' => coded? 8 rest
    | _ => none

structure Stop where
  text : List Char
  place : Cursor
  escapedBreak : Bool

def word? (single : Bool) : Nat → List Char → Cursor → Option Stop
  | 0, read, c => some { text := read.reverse, place := c, escapedBreak := false }
  | fuel + 1, read, c =>
    let stop : Stop := { text := read.reverse, place := c, escapedBreak := false }
    match c.rest with
    | [] => some stop
    | x :: rest =>
      if isBlank x || isBreak x then some stop
      else if single && x = '\'' then
        if rest.head? == some '\'' then word? single fuel ('\'' :: read) (c.skip 2) else some stop
      else if !single && x = '"' then some stop
      else if !single && x = '\\' then
        if rest.head?.any isBreak then
          some { stop with place := (c.skip 1).lineBreak.2, escapedBreak := true }
        else
          match escape? rest with
          | some (y, width) => word? single fuel (y :: read) (c.skip (1 + width))
          | none => none
      else word? single fuel (x :: read) (c.skip 1)

def words? (single : Bool) : Nat → List Char → Cursor → Option (List Char × Cursor)
  | 0, _, _ => none
  | fuel + 1, text, c =>
    if c.startsDocumentMark || c.rest.isEmpty then none
    else do
      let stop ← word? single c.rest.length [] c
      let text := text ++ stop.text
      if stop.place.rest.head? == some (if single then '\'' else '"') then
        return (text, stop.place.skip 1)
      let gap ← Gap.read? 0
        (if stop.escapedBreak then .afterEscapedBreak stop.place else .start stop.place)
      words? single fuel (text ++ gap.text) gap.after

def scan? (single : Bool) (c : Cursor) : Option (List Char × Cursor) :=
  words? single (c.rest.length + 1) [] (c.skip 1)

end Quoted

namespace Block

inductive Chomping where
  | strip
  | clip
  | keep
  deriving DecidableEq, Inhabited

structure Header where
  chomping : Chomping
  increment : Option Nat

def chomping? : Char → Option Chomping
  | '+' => some .keep
  | '-' => some .strip
  | _ => none

def header? : List Char → Option (Header × Nat)
  | x :: y :: _ =>
    let first := chomping? x
    let second := chomping? y
    match first, second with
    | some chomping, _ =>
      if y.isDigit then
        if y = '0' then none else some (⟨chomping, some (y.toNat - '0'.toNat)⟩, 2)
      else some (⟨chomping, none⟩, 1)
    | none, second =>
      if x.isDigit then
        if x = '0' then none
        else
          let increment := some (x.toNat - '0'.toNat)
          match second with
          | some chomping => some (⟨chomping, increment⟩, 2)
          | none => some (⟨.clip, increment⟩, 1)
      else some (⟨.clip, none⟩, 0)
  | [x] =>
    match chomping? x with
    | some chomping => some (⟨chomping, none⟩, 1)
    | none =>
      if x.isDigit then
        if x = '0' then none else some (⟨.clip, some (x.toNat - '0'.toNat)⟩, 1)
      else some (⟨.clip, none⟩, 0)
  | [] => some (⟨.clip, none⟩, 0)

structure Breaks where
  place : Cursor
  breaks : List Char
  reached : Nat

/-- Skips indentation and blank lines; without a known indentation every space is skipped. A tab in
its place is refused. -/
def breaks? (indent : Option Nat) : Nat → Breaks → Option Breaks
  | 0, b => some b
  | fuel + 1, b =>
    let spaces := (b.place.rest.takeWhile (· = ' ')).length
    let wanted := match indent with
      | some n => min spaces (n - b.place.column)
      | none => spaces
    let place := b.place.skip wanted
    let reached := max b.reached place.column
    let inIndent := match indent with
      | some n => place.column < n
      | none => true
    match place.rest with
    | [] => some { b with place, reached }
    | c :: _ =>
      if inIndent && c = '\t' then none
      else if isBreak c then
        let (read, after) := place.lineBreak
        breaks? indent fuel { place := after, breaks := b.breaks ++ read, reached }
      else some { b with place, reached }

structure Body where
  text : List Char
  lastBreak : List Char
  indented : Bool
  gap : Breaks

def lines? (literal : Bool) (indent : Nat) : Nat → Body → Option Body
  | 0, b => some b
  | fuel + 1, b =>
    let here := b.gap.place
    if here.column ≠ indent || here.rest.isEmpty then some b
    else do
      let blank := here.rest.head?.any isBlank
      let joint :=
        if !literal && b.lastBreak = ['\n'] && !b.indented && !blank then
          (if b.gap.breaks.isEmpty then [' '] else [])
        else b.lastBreak
      let line := here.rest.takeWhile (!isBreak ·)
      let (lastBreak, place) := (here.skip line.length).lineBreak
      let gap ← breaks? (some indent) place.rest.length { place, breaks := [], reached := 0 }
      lines? literal indent fuel
        { text := b.text ++ joint ++ b.gap.breaks ++ line, lastBreak, indented := blank, gap }

def scan? (literal : Bool) (parent : Int) (c : Cursor) : Option (List Char × Cursor) := do
  let c := c.skip 1
  let (header, width) ← header? c.rest
  let c := (c.skip width).skipWhile isBlank
  let c := if c.rest.head? == some '#' then c.skipWhile (!isBreak ·) else c
  if !(c.rest.head?.all isBreak) then none
  else
    let start : Breaks := { place := c.lineBreak.2, breaks := [], reached := 0 }
    let given := header.increment.map fun n => if 0 ≤ parent then parent.toNat + n else n
    let gap ← breaks? given start.place.rest.length start
    let indent := given.getD (max (max gap.reached (parent + 1).toNat) 1)
    let body ← lines? literal indent (c.rest.length + 1)
      { text := [], lastBreak := [], indented := false, gap }
    let ending := match header.chomping with
      | .strip => []
      | .clip => body.lastBreak
      | .keep => body.lastBreak ++ body.gap.breaks
    return (body.text ++ ending, body.gap.place)

end Block

end RunBoard.Yaml
