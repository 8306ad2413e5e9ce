import RunBoard.Model.Artifact

namespace RunBoard.Path

def pieces (path : List Char) : List (List Char) :=
  let (last, found) := path.foldr
    (fun c (piece, found) => if c = '/' then ([], piece :: found) else (c :: piece, found)) ([], [])
  (last :: found).filter (!·.isEmpty)

def segments (path : String) : List String := (pieces path.toList).map String.ofList

def isSchemeChar (c : Char) : Bool := c.isAlphanum || c = '+' || c = '-' || c = '.'

/-- The scheme with its colon, and the rest; the scheme is empty when the text before the first
colon is no scheme. -/
def splitScheme (path : List Char) : List Char × List Char :=
  let name := path.takeWhile (· != ':')
  match path.dropWhile (· != ':') with
  | colon :: rest =>
    if !name.isEmpty && name.all isSchemeChar then (name ++ [colon], rest) else ([], path)
  | [] => ([], path)

def squeeze : List Char → List Char
  | '/' :: '/' :: rest => squeeze ('/' :: rest)
  | c :: rest => c :: squeeze rest
  | [] => []

def dropFinalSlash (path : List Char) : List Char :=
  if 1 < path.length && path.getLast? == some '/' then path.dropLast else path

def normalizeChars (path : List Char) : List Char :=
  let (scheme, rest) := splitScheme path
  scheme ++ dropFinalSlash (squeeze rest)

def normalize (path : String) : String := String.ofList (normalizeChars path.toList)

/-- The path of `source` below `root`, in normal form, or `none` when it lies outside. -/
def relative? (source root : String) : Option String :=
  match (normalizeChars root.toList).isPrefixOf? (normalizeChars source.toList) with
  | some [] => some ""
  | some ('/' :: rest) => some (String.ofList rest)
  | _ => none

def versionsAt (versions : List ModelVersion) (root path : String) : List ModelVersion :=
  versions.filter fun version => relative? version.source root == some (normalize path)

end RunBoard.Path
