namespace RunBoard.Yaml

def isAllowed (c : Char) : Bool :=
  let n := c.toNat
  n = 0x9 || n = 0xA || n = 0xD || (0x20 ≤ n && n ≤ 0x7E) || n = 0x85 || (0xA0 ≤ n && n ≤ 0xD7FF) ||
    (0xE000 ≤ n && n ≤ 0xFFFD) || 0x10000 ≤ n

def isBlank (c : Char) : Bool := c = ' ' || c = '\t'

def isBreak (c : Char) : Bool :=
  c = '\r' || c = '\n' || c = '\u0085' || c = '\u2028' || c = '\u2029'

def endsWord : List Char → Bool
  | [] => true
  | c :: _ => isBlank c || isBreak c

def isWordChar (c : Char) : Bool := c.isAlphanum || c = '_' || c = '-'

def octetCount (chars : List Char) : Nat := chars.foldl (fun n c => n + c.utf8Size) 0

structure Cursor where
  rest : List Char
  index : Nat
  line : Nat
  column : Nat
  deriving Inhabited

namespace Cursor

def start (text : List Char) : Cursor := { rest := text, index := 0, line := 0, column := 0 }

def skip (c : Cursor) (n : Nat) : Cursor :=
  { c with
    rest := c.rest.drop n
    index := c.index + octetCount (c.rest.take n)
    column := c.column + n }

def skipWhile (c : Cursor) (p : Char → Bool) : Cursor := c.skip (c.rest.takeWhile p).length

def lineBreak (c : Cursor) : List Char × Cursor :=
  let next (width : Nat) : Cursor := { c.skip width with line := c.line + 1, column := 0 }
  match c.rest with
  | '\r' :: '\n' :: _ => (['\n'], next 2)
  | '\r' :: _ => (['\n'], next 1)
  | '\n' :: _ => (['\n'], next 1)
  | '\u0085' :: _ => (['\n'], next 1)
  | '\u2028' :: _ => (['\u2028'], next 1)
  | '\u2029' :: _ => (['\u2029'], next 1)
  | _ => ([], c)

def startsMark (c : Cursor) (mark : Char) : Bool :=
  match c.rest with
  | x :: y :: z :: after => c.column = 0 && x = mark && y = mark && z = mark && endsWord after
  | _ => false

def startsDocumentMark (c : Cursor) : Bool := c.startsMark '-' || c.startsMark '.'

end Cursor

/-- Blanks and line breaks between two words of a scalar. -/
structure Gap where
  after : Cursor
  broken : Bool
  blanks : List Char
  firstBreak : List Char
  moreBreaks : List Char

namespace Gap

def start (c : Cursor) : Gap :=
  { after := c, broken := false, blanks := [], firstBreak := [], moreBreaks := [] }

def afterEscapedBreak (c : Cursor) : Gap := { start c with broken := true }

/-- What the gap stands for: one line break is folded into a space, more of them lose the first. -/
def text (g : Gap) : List Char :=
  if !g.broken then g.blanks
  else if g.firstBreak = ['\n'] then (if g.moreBreaks.isEmpty then [' '] else g.moreBreaks)
  else g.firstBreak ++ g.moreBreaks

def extend? (limit : Nat) : Nat → Gap → Option Gap
  | 0, g => some g
  | fuel + 1, g =>
    match g.after.rest with
    | [] => some g
    | c :: _ =>
      if isBlank c then
        if !g.broken then
          extend? limit fuel { g with after := g.after.skip 1, blanks := g.blanks ++ [c] }
        else if c = '\t' && g.after.column < limit then none
        else extend? limit fuel { g with after := g.after.skip 1 }
      else if isBreak c then
        let (read, after) := g.after.lineBreak
        if g.broken then extend? limit fuel { g with after, moreBreaks := g.moreBreaks ++ read }
        else extend? limit fuel { g with after, broken := true, blanks := [], firstBreak := read }
      else some g

def read? (limit : Nat) (g : Gap) : Option Gap := extend? limit g.after.rest.length g

end Gap

end RunBoard.Yaml
