import RunBoard.Json.Record

namespace RunBoard

structure ArtifactFile where
  path : String
  isDir : Bool
  size : Option UInt64
  deriving DecidableEq, Inhabited

namespace ArtifactFile

def directory (path : String) : ArtifactFile := { path, isDir := true, size := none }

def file (path : String) (size : UInt64) : ArtifactFile := { path, isDir := false, size := some size }

/-- The last piece of the path; slashes at its end do not count. -/
def name (f : ArtifactFile) : String :=
  String.ofList ((f.path.toList.reverse.dropWhile (· == '/')).takeWhile (· != '/')).reverse

instance : JsonForm ArtifactFile where
  encode f := .obj [
    ("path", encode f.path),
    ("is_dir", encode f.isDir),
    ("file_size", encode f.size)]
  decode? j := do
    let [path, isDir, size] ← j.record? ["path", "is_dir", "file_size"] | none
    return {
      path := ← Json.required? path
      isDir := ← Json.required? isDir
      size := ← Json.optional? size }

end ArtifactFile

structure ArtifactListing where
  rootUri : Option String
  files : List ArtifactFile
  deriving DecidableEq, Inhabited

instance : JsonForm ArtifactListing where
  encode l := .obj [("root_uri", encode l.rootUri), ("files", encode l.files)]
  decode? j := do
    let [rootUri, files] ← j.record? ["root_uri", "files"] | none
    return { rootUri := ← Json.optional? rootUri, files := ← Json.defaulted? [] files }

structure ModelVersion where
  name : String
  version : String
  source : String
  runId : String
  status : Option String
  creationTime : Option Int64
  deriving DecidableEq, Inhabited

instance : JsonForm ModelVersion where
  encode v := .obj [
    ("name", encode v.name),
    ("version", encode v.version),
    ("source", encode v.source),
    ("run_id", encode v.runId),
    ("status", encode v.status),
    ("creation_timestamp", encode v.creationTime)]
  decode? j := do
    let [name, version, source, runId, status, created] ← j.record?
      ["name", "version", "source", "run_id", "status", "creation_timestamp"] | none
    return {
      name := ← Json.required? name
      version := ← Json.required? version
      source := ← Json.required? source
      runId := ← Json.required? runId
      status := ← Json.optional? status
      creationTime := ← Json.optional? created }

end RunBoard
