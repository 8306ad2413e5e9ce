import RunBoard.Artifact.Path
import RunBoard.Table
import RunBoard.Text.Quoted

namespace RunBoard

/-- A node has no children until its directory has been listed; then they stand in ascending order
of their names. -/
structure ArtifactNode where
  isRoot : Bool
  file : Option ArtifactFile
  children : Option (List (String × ArtifactNode))
  deriving Inhabited

inductive ListingFault where
  | parentNotListed
  | noSuchEntry
  | notDirectory
  deriving DecidableEq, Inhabited

structure ListingError where
  run : String
  path : String
  fault : ListingFault
  deriving DecidableEq, Inhabited

namespace ListingFault

def reason : ListingFault → String
  | parentNotListed => "parent directory has not been listed"
  | noSuchEntry => "no such entry"
  | notDirectory => "not a directory"

end ListingFault

def ListingError.message (e : ListingError) : String :=
  "Invalid artifact path " ++ Text.quoted e.path ++ " for run " ++ e.run ++ ": " ++ e.fault.reason

namespace ArtifactNode

def root : ArtifactNode := { isRoot := true, file := none, children := none }

def leaf (file : ArtifactFile) : ArtifactNode := { isRoot := false, file := some file, children := none }

def isDir (n : ArtifactNode) : Bool := n.isRoot || n.file.any (·.isDir)

def isLoaded (n : ArtifactNode) : Bool := n.children.isSome

def name (n : ArtifactNode) : String := (n.file.map (·.name)).getD ""

def listedBefore (a b : ArtifactNode) : Bool :=
  (a.isDir && !b.isDir) || (a.isDir == b.isDir && a.name ≤ b.name)

def listing (n : ArtifactNode) : List ArtifactNode :=
  ((n.children.getD []).map (·.2)).mergeSort listedBefore

def child? (n : ArtifactNode) (name : String) : Option ArtifactNode :=
  n.children.bind (·.lookup name)

def descend? (n : ArtifactNode) : List String → Option ArtifactNode
  | [] => some n
  | name :: rest => (n.child? name).bind (·.descend? rest)

def find? (n : ArtifactNode) (path : String) : Option ArtifactNode := n.descend? (Path.segments path)

/-- One unlisted node per name, the last file of a name counting. -/
def leaves (files : List ArtifactFile) : List (String × ArtifactNode) :=
  (Table.ofPairs (files.map fun file => (file.name, leaf file))).toList

def replaceChild (name : String) (node : ArtifactNode) :
    List (String × ArtifactNode) → List (String × ArtifactNode)
  | [] => []
  | (other, held) :: rest =>
    if other = name then (name, node) :: rest else (other, held) :: replaceChild name node rest

def fill (files : List ArtifactFile) : List String → ArtifactNode → Except ListingFault ArtifactNode
  | [], n => if n.isDir then .ok { n with children := some (leaves files) } else .error .notDirectory
  | name :: rest, n =>
    match n.children with
    | none => .error .parentNotListed
    | some children =>
      match children.lookup name with
      | none => .error .noSuchEntry
      | some held =>
        match fill files rest held with
        | .error fault => .error fault
        | .ok node => .ok { n with children := some (replaceChild name node children) }

/-- The tree after a listing of the directory at `path`, the root's when there is none. -/
def withListing (n : ArtifactNode) (run : String) (path : Option String) (files : List ArtifactFile) :
    Except ListingError ArtifactNode :=
  let path := path.getD ""
  (fill files (Path.segments path) n).mapError fun fault => { run, path, fault }

end ArtifactNode

end RunBoard
