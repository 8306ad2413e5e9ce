import RunBoard.Yaml.Scalar
import RunBoard.Yaml.Tag

namespace RunBoard.Yaml

inductive Token where
  | version (major minor : Nat)
  | tagHandle (handle : String) (start : Tag)
  | documentStart
  | documentEnd
  | blockSequence
  | blockMapping
  | blockEnd
  | flowSequence
  | flowSequenceEnd
  | flowMapping
  | flowMappingEnd
  | entry
  | flowEntry
  | key
  | value
  | alias (name : String)
  | anchor (name : String)
  | tag (written : Tag.Written)
  | scalar (text : String) (style : ScalarStyle)
  deriving DecidableEq, Inhabited

/-- A token that a colon may turn into a key: how many tokens are before it, and where it starts. -/
structure KeyCandidate where
  tokens : Nat
  index : Nat
  line : Nat
  column : Nat
  required : Bool

structure Scan where
  place : Cursor
  tokens : List Token
  indent : Int
  outer : List Int
  keyAllowed : Bool
  candidates : List (Option KeyCandidate)

namespace Scan

def start (text : List Char) : Scan :=
  { place := .start text, tokens := [], indent := -1, outer := [], keyAllowed := true,
    candidates := [none] }

def inFlow (s : Scan) : Bool := 1 < s.candidates.length

def push (s : Scan) (t : Token) : Scan := { s with tokens := s.tokens ++ [t] }

def openBlock (s : Scan) (column : Nat) (before : Nat) (t : Token) : Scan :=
  if s.inFlow || (column : Int) ≤ s.indent then s
  else
    { s with
      indent := column
      outer := s.indent :: s.outer
      tokens := s.tokens.take before ++ t :: s.tokens.drop before }

def closeFrom (column : Int) : List Int → Scan → Scan
  | [], s => s
  | around :: outer, s =>
    if column < s.indent then
      closeFrom column outer { s.push .blockEnd with indent := around, outer }
    else s

def closeBlocks (s : Scan) (column : Int) : Scan := if s.inFlow then s else closeFrom column s.outer s

/-- A candidate ends with its line and after 1024 octets. -/
def isStale (place : Cursor) (k : KeyCandidate) : Bool :=
  k.line < place.line || k.index + 1024 < place.index

def dropStale? (s : Scan) : Option Scan :=
  if s.candidates.any fun k => k.any fun k => isStale s.place k && k.required then none
  else
    some { s with candidates := s.candidates.map fun k => k.filter fun k => !isStale s.place k }

def dropCandidate? (s : Scan) : Option Scan :=
  match s.candidates with
  | k :: rest =>
    if k.any (·.required) then none else some { s with candidates := none :: rest }
  | [] => some s

def offerKey? (s : Scan) : Option Scan :=
  if s.keyAllowed then do
    let s ← s.dropCandidate?
    let k : KeyCandidate := {
      tokens := s.tokens.length, index := s.place.index, line := s.place.line,
      column := s.place.column, required := !s.inFlow && s.indent == s.place.column }
    return { s with candidates := some k :: s.candidates.tail }
  else some s

/-- Skips blanks, comments and line breaks. A tab is no blank where a key could start. A byte order
mark in front of a line is skipped but takes a column. -/
def skipToToken : Nat → Scan → Scan
  | 0, s => s
  | fuel + 1, s =>
    let place := if s.place.column = 0 && s.place.rest.head? == some '\ufeff' then s.place.skip 1
      else s.place
    let place := place.skipWhile fun c => c = ' ' || ((s.inFlow || !s.keyAllowed) && c = '\t')
    let place := if place.rest.head? == some '#' then place.skipWhile (!isBreak ·) else place
    if place.rest.head?.any isBreak then
      skipToToken fuel
        { s with place := place.lineBreak.2, keyAllowed := s.keyAllowed || !s.inFlow }
    else { s with place }

def endLine? (c : Cursor) : Option Cursor :=
  let c := c.skipWhile isBlank
  let c := if c.rest.head? == some '#' then c.skipWhile (!isBreak ·) else c
  if c.rest.head?.all isBreak then some c.lineBreak.2 else none

def versionNumber? (c : Cursor) : Option (Nat × Cursor) :=
  let digits := c.rest.takeWhile Char.isDigit
  if digits.isEmpty || 9 < digits.length then none
  else some (digits.foldl (fun n d => 10 * n + (d.toNat - '0'.toNat)) 0, c.skip digits.length)

def versionDirective? (c : Cursor) : Option (Token × Cursor) := do
  let (major, c) ← versionNumber? (c.skipWhile isBlank)
  if c.rest.head? != some '.' then none
  else
    let (minor, c) ← versionNumber? (c.skip 1)
    return (.version major minor, c)

def tagDirective? (c : Cursor) : Option (Token × Cursor) :=
  (Tag.scanHandle? c).map fun (handle, start, c) => (.tagHandle handle start, c)

def directive? (c : Cursor) : Option (Token × Cursor) := do
  let c := c.skip 1
  let name := c.rest.takeWhile isWordChar
  let c := c.skip name.length
  if !endsWord c.rest then none
  else
    let (t, c) ← match String.ofList name with
      | "YAML" => versionDirective? c
      | "TAG" => tagDirective? c
      | _ => none
    return (t, ← endLine? c)

def atLineStart? (s : Scan) : Option Scan := do
  return { ← (s.closeBlocks (-1)).dropCandidate? with keyAllowed := false }

def mark (s : Scan) (t : Token) (width : Nat) : Scan := { s.push t with place := s.place.skip width }

def flowOpen? (s : Scan) (t : Token) : Option Scan := do
  let s ← s.offerKey?
  return { s.mark t 1 with candidates := none :: s.candidates, keyAllowed := true }

def flowClose? (s : Scan) (t : Token) : Option Scan := do
  let s ← s.dropCandidate?
  let candidates := if s.inFlow then s.candidates.tail else s.candidates
  return { s.mark t 1 with candidates, keyAllowed := false }

def flowEntry? (s : Scan) : Option Scan := do
  return { (← s.dropCandidate?).mark .flowEntry 1 with keyAllowed := true }

def startBlock? (s : Scan) (t : Token) : Option Scan :=
  if s.inFlow then some s
  else if s.keyAllowed then some (s.openBlock s.place.column s.tokens.length t)
  else none

def entry? (s : Scan) : Option Scan := do
  let s ← (← s.startBlock? .blockSequence).dropCandidate?
  return { s.mark .entry 1 with keyAllowed := true }

def key? (s : Scan) : Option Scan := do
  let s ← (← s.startBlock? .blockMapping).dropCandidate?
  return { s.mark .key 1 with keyAllowed := !s.inFlow }

def value? (s : Scan) : Option Scan :=
  match s.candidates with
  | some k :: rest =>
    let s := { s with
      tokens := s.tokens.take k.tokens ++ Token.key :: s.tokens.drop k.tokens
      candidates := none :: rest }
    let s := s.openBlock k.column k.tokens .blockMapping
    some { s.mark .value 1 with keyAllowed := false }
  | _ => do
    let s ← s.startBlock? .blockMapping
    return { s.mark .value 1 with keyAllowed := !s.inFlow }

def named? (s : Scan) (t : String → Token) : Option Scan := do
  let s ← s.offerKey?
  let name := (s.place.rest.drop 1).takeWhile isWordChar
  let after := s.place.rest.drop (1 + name.length)
  if name.isEmpty || !(endsWord after || after.head?.any fun c => "?:,]\x7d%@`".toList.contains c)
  then none
  else
    return { s.mark (t (String.ofList name)) (1 + name.length) with keyAllowed := false }

def tagged? (s : Scan) : Option Scan := do
  let s ← s.offerKey?
  let (written, place) ← Tag.scan? s.place
  if endsWord place.rest || (s.inFlow && place.rest.head? == some ',') then
    return { s.push (.tag written) with place, keyAllowed := false }
  else none

def quoted? (s : Scan) (style : ScalarStyle) : Option Scan := do
  let s ← s.offerKey?
  let (text, place) ← Quoted.scan? (style == .singleQuoted) s.place
  return { s.push (.scalar (String.ofList text) style) with place, keyAllowed := false }

def block? (s : Scan) (style : ScalarStyle) : Option Scan := do
  let s ← s.dropCandidate?
  let (text, place) ← Block.scan? (style == .literal) s.indent s.place
  return { s.push (.scalar (String.ofList text) style) with place, keyAllowed := true }

def plain? (s : Scan) : Option Scan := do
  let s ← s.offerKey?
  let read ← Plain.scan? s.inFlow (s.indent + 1).toNat s.place
  return { s.push (.scalar (String.ofList read.text) .plain) with
    place := read.gap.after, keyAllowed := read.gap.broken }

def startsPlain (inFlow : Bool) (c : Char) (rest : List Char) : Bool :=
  !(isBlank c || isBreak c || "-?:,[]\x7b\x7d#&*!|>'\"%@`".toList.contains c) ||
    (c = '-' && !(rest.head?.any isBlank)) ||
    (!inFlow && (c = '?' || c = ':') && !endsWord rest)

def token? (s : Scan) (c : Char) (rest : List Char) : Option Scan :=
  if s.place.column = 0 && c = '%' then do
    let s ← s.atLineStart?
    let (t, place) ← directive? s.place
    return { s.push t with place }
  else if s.place.startsMark '-' then do return (← s.atLineStart?).mark .documentStart 3
  else if s.place.startsMark '.' then do return (← s.atLineStart?).mark .documentEnd 3
  else if c = '[' then s.flowOpen? .flowSequence
  else if c = '\x7b' then s.flowOpen? .flowMapping
  else if c = ']' then s.flowClose? .flowSequenceEnd
  else if c = '\x7d' then s.flowClose? .flowMappingEnd
  else if c = ',' then s.flowEntry?
  else if c = '-' && endsWord rest then s.entry?
  else if c = '?' && (s.inFlow || endsWord rest) then s.key?
  else if c = ':' && (s.inFlow || endsWord rest) then s.value?
  else if c = '*' then s.named? .alias
  else if c = '&' then s.named? .anchor
  else if c = '!' then s.tagged?
  else if c = '|' && !s.inFlow then s.block? .literal
  else if c = '>' && !s.inFlow then s.block? .folded
  else if c = '\'' then s.quoted? .singleQuoted
  else if c = '"' then s.quoted? .doubleQuoted
  else if startsPlain s.inFlow c rest then s.plain?
  else none

def finish? (s : Scan) : Option Scan := (s.closeBlocks (-1)).dropCandidate?

def run? : Nat → Scan → Option Scan
  | 0, _ => none
  | fuel + 1, s => do
    let s := skipToToken (s.place.rest.length + 1) s
    let s ← s.dropStale?
    let s := s.closeBlocks s.place.column
    match s.place.rest with
    | [] => s.finish?
    | c :: rest => run? fuel (← s.token? c rest)

end Scan

def tokens? (text : String) : Option (List Token) :=
  let chars := text.toList
  if chars.all isAllowed then (Scan.run? (chars.length + 1) (.start chars)).map (·.tokens) else none

end RunBoard.Yaml
