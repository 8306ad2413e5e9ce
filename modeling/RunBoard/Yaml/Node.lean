import RunBoard.Yaml.Token

namespace RunBoard.Yaml

inductive Node where
  | scalar (text : String) (style : ScalarStyle) (tag : Option Tag)
  | sequence (items : List Node)
  | mapping (entries : List (Node × Node))
  | alias (number : Nat)
  deriving Inhabited

namespace Node

def blank (tag : Option Tag) : Node := scalar "" .plain tag

end Node

structure Anchor where
  name : String
  number : Nat
  node : Node
  deriving Inhabited

namespace Anchor

def numberOf? (anchors : List Anchor) (name : String) : Option Nat :=
  (anchors.reverse.find? (·.name == name)).map (·.number)

/-- The number of the next anchor is the count of names before it. A name that is used again adds
nothing to the count, so that anchors of two names may share a number. -/
def nextNumber (anchors : List Anchor) : Nat := (anchors.map (·.name)).eraseDups.length

def node? (anchors : List Anchor) (number : Nat) : Option Node :=
  (anchors.reverse.find? (·.number == number)).map (·.node)

end Anchor

namespace Node

structure State where
  tokens : List Token
  anchors : List Anchor
  handles : List (String × Tag)

def tag? (handles : List (String × Tag)) (written : Tag.Written) : Option Tag :=
  if written.handle.isEmpty then some written.ending
  else (handles.lookup written.handle).map (· ++ written.ending)

structure Properties where
  anchor : Option String
  tag : Option Tag

def properties? (s : State) : Option (Properties × State) :=
  match s.tokens with
  | .anchor name :: .tag written :: rest => do
    let tag ← tag? s.handles written
    return (⟨some name, some tag⟩, { s with tokens := rest })
  | .tag written :: .anchor name :: rest => do
    let tag ← tag? s.handles written
    return (⟨some name, some tag⟩, { s with tokens := rest })
  | .anchor name :: rest => some (⟨some name, none⟩, { s with tokens := rest })
  | .tag written :: rest => do
    let tag ← tag? s.handles written
    return (⟨none, some tag⟩, { s with tokens := rest })
  | _ => some (⟨none, none⟩, s)

def openAnchor (s : State) : Option String → State
  | some name =>
    let number := Anchor.nextNumber s.anchors
    { s with anchors := s.anchors ++ [⟨name, number, .alias number⟩] }
  | none => s

def closeAnchor (s : State) (index : Nat) (node : Node) : State :=
  { s with anchors := s.anchors.modify index fun a => { a with node } }

def comesNext (s : State) (marks : List Token) : Bool := s.tokens.head?.any fun t => marks.contains t

mutual

/-- A node; `inBlock` where block collections may start, `dashes` where a sequence may start with
its dashes at the column of the block around it. -/
def node? (inBlock dashes : Bool) : Nat → State → Option (Node × State)
  | 0, _ => none
  | fuel + 1, s =>
    match s.tokens with
    | .alias name :: rest =>
      (Anchor.numberOf? s.anchors name).map fun number => (.alias number, { s with tokens := rest })
    | _ => do
      let (given, s) ← properties? s
      let index := s.anchors.length
      let s := openAnchor s given.anchor
      let (node, s) ← content? inBlock dashes fuel given s
      return (node, if given.anchor.isSome then closeAnchor s index node else s)

def content? (inBlock dashes : Bool) : Nat → Properties → State → Option (Node × State)
  | 0, _, _ => none
  | fuel + 1, given, s =>
    match s.tokens with
    | .scalar text style :: rest => some (scalar text style given.tag, { s with tokens := rest })
    | .flowSequence :: rest => flowItems? true fuel [] { s with tokens := rest }
    | .flowMapping :: rest => flowPairs? true fuel [] { s with tokens := rest }
    | t :: rest =>
      if dashes && t == .entry then dashItems? fuel [] s
      else if inBlock && t == .blockSequence then blockItems? fuel [] { s with tokens := rest }
      else if inBlock && t == .blockMapping then blockPairs? fuel [] { s with tokens := rest }
      else if given.anchor.isSome || given.tag.isSome then some (blank given.tag, s)
      else none
    | [] => if given.anchor.isSome || given.tag.isSome then some (blank given.tag, s) else none

def nodeUnless? (inBlock dashes : Bool) (marks : List Token) :
    Nat → State → Option (Node × State)
  | 0, _ => none
  | fuel + 1, s =>
    if comesNext s marks then some (blank none, s) else node? inBlock dashes fuel s

def blockItems? : Nat → List Node → State → Option (Node × State)
  | 0, _, _ => none
  | fuel + 1, read, s =>
    match s.tokens with
    | .entry :: rest => do
      let (item, s) ← nodeUnless? true false [.entry, .blockEnd] fuel { s with tokens := rest }
      blockItems? fuel (item :: read) s
    | .blockEnd :: rest => some (sequence read.reverse, { s with tokens := rest })
    | _ => none

def dashItems? : Nat → List Node → State → Option (Node × State)
  | 0, _, _ => none
  | fuel + 1, read, s =>
    match s.tokens with
    | .entry :: rest => do
      let (item, s) ←
        nodeUnless? true false [.entry, .key, .value, .blockEnd] fuel { s with tokens := rest }
      dashItems? fuel (item :: read) s
    | _ => some (sequence read.reverse, s)

def blockPairs? : Nat → List (Node × Node) → State → Option (Node × State)
  | 0, _, _ => none
  | fuel + 1, read, s =>
    match s.tokens with
    | .key :: rest => do
      let (name, s) ← nodeUnless? true true [.key, .value, .blockEnd] fuel { s with tokens := rest }
      match s.tokens with
      | .value :: rest =>
        let (held, s) ← nodeUnless? true true [.key, .value, .blockEnd] fuel { s with tokens := rest }
        blockPairs? fuel ((name, held) :: read) s
      | _ => blockPairs? fuel ((name, blank none) :: read) s
    | .blockEnd :: rest => some (mapping read.reverse, { s with tokens := rest })
    | _ => none

def flowItems? (first : Bool) : Nat → List Node → State → Option (Node × State)
  | 0, _, _ => none
  | fuel + 1, read, s =>
    match s.tokens with
    | .flowSequenceEnd :: rest => some (sequence read.reverse, { s with tokens := rest })
    | _ => do
      let s ← separated? first s
      match s.tokens with
      | .flowSequenceEnd :: rest => some (sequence read.reverse, { s with tokens := rest })
      | .key :: rest =>
        let (pair, s) ← flowItemPair? fuel { s with tokens := rest }
        flowItems? false fuel (pair :: read) s
      | _ =>
        let (item, s) ← node? false false fuel s
        flowItems? false fuel (item :: read) s

def separated? (first : Bool) (s : State) : Option State :=
  if first then some s
  else
    match s.tokens with
    | .flowEntry :: rest => some { s with tokens := rest }
    | _ => none

def flowItemPair? : Nat → State → Option (Node × State)
  | 0, _ => none
  | fuel + 1, s => do
    let (name, s) ←
      if comesNext s [.value, .flowEntry, .flowSequenceEnd] then
        some (blank none, { s with tokens := s.tokens.tail })
      else node? false false fuel s
    match s.tokens with
    | .value :: rest =>
      let (held, s) ←
        nodeUnless? false false [.flowEntry, .flowSequenceEnd] fuel { s with tokens := rest }
      return (mapping [(name, held)], s)
    | _ => return (mapping [(name, blank none)], s)

def flowPairs? (first : Bool) : Nat → List (Node × Node) → State → Option (Node × State)
  | 0, _, _ => none
  | fuel + 1, read, s =>
    match s.tokens with
    | .flowMappingEnd :: rest => some (mapping read.reverse, { s with tokens := rest })
    | _ => do
      let s ← separated? first s
      match s.tokens with
      | .flowMappingEnd :: rest => some (mapping read.reverse, { s with tokens := rest })
      | .key :: rest =>
        let (name, s) ←
          nodeUnless? false false [.value, .flowEntry, .flowMappingEnd] fuel { s with tokens := rest }
        match s.tokens with
        | .value :: rest =>
          let (held, s) ←
            nodeUnless? false false [.flowEntry, .flowMappingEnd] fuel { s with tokens := rest }
          flowPairs? false fuel ((name, held) :: read) s
        | _ => flowPairs? false fuel ((name, blank none) :: read) s
      | _ =>
        let (name, s) ← node? false false fuel s
        flowPairs? false fuel ((name, blank none) :: read) s

end

end Node

structure Document where
  root : Node
  anchors : List Anchor
  deriving Inhabited

namespace Document

def target? (d : Document) : Node → Option Node
  | .alias number => Anchor.node? d.anchors number
  | node => some node

def directives? (seen : Bool) (handles : List (String × Tag)) :
    List Token → Option (List (String × Tag) × List Token)
  | .version major minor :: rest =>
    if seen || major ≠ 1 || (minor ≠ 1 && minor ≠ 2) then none else directives? true handles rest
  | .tagHandle handle start :: rest =>
    if (handles.lookup handle).isSome then none
    else directives? seen (handles ++ [(handle, start)]) rest
  | rest => some (handles, rest)

def commonHandles : List (String × Tag) :=
  [("!", Tag.ofAscii ['!']), ("!!", Tag.ofAscii "tag:yaml.org,2002:".toList)]

def body? (explicit : Bool) (handles : List (String × Tag)) (tokens : List Token) :
    Option Document := do
  let s : Node.State := { tokens, anchors := [], handles := handles ++ commonHandles }
  let empty := explicit && (tokens.isEmpty || Node.comesNext s [.documentStart, .documentEnd])
  let (root, s) ←
    if empty then some (Node.blank none, s) else Node.node? true false (4 * tokens.length + 4) s
  if s.tokens.all (· == .documentEnd) then return { root, anchors := s.anchors } else none

/-- The only document of a text: malformed or several documents give `none`, and a text without one
gives `some none`. -/
def ofText? (text : String) : Option (Option Document) := do
  let tokens ← tokens? text
  if tokens.isEmpty then return none
  else
    match ← directives? false [] tokens with
    | (handles, .documentStart :: rest) => return some (← body? true handles rest)
    | (_, rest) =>
      if rest.length = tokens.length then return some (← body? false [] rest) else none

end Document

end RunBoard.Yaml
