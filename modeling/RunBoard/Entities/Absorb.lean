import RunBoard.Entities.State

namespace RunBoard

def labelTable (labels : List Label) : Table Label :=
  Table.ofPairs (labels.map fun label => (label.key, label))

theorem getElem?_labelTable (labels : List Label) (key : String) :
    (labelTable labels)[key]? = (labels.filter (·.key == key)).getLast? := by
  rw [labelTable, Table.getElem?_ofPairs, List.filter_map, List.map_map]
  exact congrArg List.getLast? (List.map_id _)

namespace Metric

/-- The last point of each key, in the order of step and time; of two equal ones the later in the
list. -/
def latestByKey (points : List Metric) : Table Metric :=
  points.foldl
    (fun table point =>
      table.alter point.key fun
        | some held => if held.notAfter point then some point else some held
        | none => some point)
    ∅

def prefer (keeps : Metric → Metric → Bool) : Option Metric → Metric → Option Metric
  | some held, point => if keeps held point then some held else some point
  | none, point => some point

def pick (keeps : Metric → Metric → Bool) (points : List Metric) : Option Metric :=
  points.foldl (prefer keeps) none

def least? (points : List Metric) : Option Metric :=
  pick (fun held point => held.value.totalLe point.value) points

def greatest? (points : List Metric) : Option Metric :=
  pick (fun held point => !held.value.totalLe point.value) points

def numbers (points : List Metric) : List Metric := points.filter (!·.value.isNaN)

def inOrder (points : List Metric) : List Metric := points.mergeSort notAfter

end Metric

namespace Entities

/-- Replaces an owner's tags; an owner without tags has no entry. -/
def replaceTags (table : Table (Table Label)) (owner : String) (tags : List Label) :
    Table (Table Label) :=
  if tags.isEmpty then table.erase owner else table.insert owner (labelTable tags)

def setOrDrop {β : Type} (table : Table (Table β)) (owner key : String) : Option β → Table (Table β)
  | some value => table.putIn owner key value
  | none => table.dropFrom owner key

def taggedEntry (e : Experiment) : Option (String × Table Label) :=
  match e.tags with
  | some (tag :: tags) => some (e.id, labelTable (tag :: tags))
  | _ => none

def replaceExperiments (s : Entities) (experiments : List Experiment) : Entities :=
  { s with
    experiments := Table.ofPairs (experiments.map fun e => (e.id, e.withoutTags))
    experimentTags := Table.ofPairs (experiments.filterMap taggedEntry) }

/-- Tags that an answer did not carry stay as they are. -/
def foldExperiment (s : Entities) (e : Experiment) : Entities :=
  { s with
    experiments := s.experiments.insert e.id
      (match s.experiments[e.id]? with
      | some known => known.reconcile e
      | none => e.withoutTags)
    experimentTags :=
      match e.tags with
      | some tags => replaceTags s.experimentTags e.id tags
      | none => s.experimentTags }

def nameRoot (s : Entities) (run : String) (uri : Option String) : Entities :=
  { s with
    artifactRoots :=
      match uri with
      | some uri => s.artifactRoots.insert run uri
      | none => s.artifactRoots }

def putRunInfo (s : Entities) (run : Run) : Entities :=
  { s with runs := s.runs.insert run.info.uuid run.info }

def putRunData (s : Entities) (run : Run) : Entities :=
  let uuid := run.info.uuid
  { s.nameRoot uuid run.info.artifactUri with
    params := s.params.insert uuid (labelTable run.data.params)
    runTags := replaceTags s.runTags uuid run.data.tags
    latest := s.latest.insert uuid (Metric.latestByKey run.data.metrics) }

def putRun (s : Entities) (run : Run) : Entities := (s.putRunInfo run).putRunData run

def appendPage (s : Entities) (page : RunPage) : Entities :=
  { page.runs.foldl putRun s with nextPageToken := page.nextPageToken }

/-- A search forgets the runs of the last one, but not their data. -/
def replacePage (s : Entities) (page : RunPage) : Entities := appendPage { s with runs := ∅ } page

def replaceHistory (s : Entities) (run key : String) (points : List Metric) : Entities :=
  let points := Metric.inOrder points
  { s with
    histories := s.histories.putIn run key points
    lowest := setOrDrop s.lowest run key (Metric.least? (Metric.numbers points))
    highest := setOrDrop s.highest run key (Metric.greatest? (Metric.numbers points))
    latest := setOrDrop s.latest run key points.getLast? }

def treeOf (s : Entities) (run : String) : ArtifactNode := s.trees[run]?.getD .root

def putTree (s : Entities) (run : String) (tree : ArtifactNode) : Entities :=
  { s with trees := s.trees.insert run tree }

def putTag (s : Entities) (owner : TagOwner) (key value : String) : Entities :=
  match owner with
  | .run uuid => { s with runTags := s.runTags.putIn uuid key { key, value } }
  | .experiment id => { s with experimentTags := s.experimentTags.putIn id key { key, value } }

def dropTag (s : Entities) (owner : TagOwner) (key : String) : Entities :=
  match owner with
  | .run uuid => { s with runTags := s.runTags.dropFrom uuid key }
  | .experiment id => { s with experimentTags := s.experimentTags.dropFrom id key }

def replaceVersions (s : Entities) (versions : List ModelVersion) : Entities :=
  { s with modelVersions := Table.group (·.runId) versions }

/-- Writes to the entities, one after the other. An error ends them, and what was written before it
stays. -/
abbrev Writes := ExceptT ListingError (StateM Entities) Unit

def addListing (run : String) (path : Option String) (listing : ArtifactListing) : Writes := do
  let tree ← ((← get).treeOf run).withListing run path listing.files
  modify (·.putTree run tree)
  modify (·.nameRoot run listing.rootUri)

def absorb : (op : Operation) → op.Payload → Writes
  | .listExperiments, experiments => modify (·.replaceExperiments experiments)
  | .getExperiment _, e => modify (·.foldExperiment e)
  | .getRun _, run => modify (·.putRun run)
  | .searchRuns, page => modify (·.replacePage page)
  | .loadMoreRuns, page => modify (·.appendPage page)
  | .getMetricHistory run key, points => modify (·.replaceHistory run key points)
  | .listArtifacts run path, listing => addListing run path listing
  | .setTag owner key value, _ => modify (·.putTag owner key value)
  | .deleteTag owner key, _ => modify (·.dropTag owner key)
  | .searchModelVersions, versions => modify (·.replaceVersions versions)

/-- What becomes of an action, and the entities that it leaves, be it refused or not. Only a fulfilled
one writes anything. -/
def reduce (s : Entities) (a : Action) : Except ListingError Unit × Entities :=
  match a.phase with
  | .fulfilled payload => (absorb a.operation payload).run s
  | _ => (.ok (), s)

def outcome (s : Entities) (a : Action) : Except ListingError Unit := (s.reduce a).1

def step (s : Entities) (a : Action) : Entities := (s.reduce a).2

def replay (s : Entities) (log : List Action) : Entities := log.foldl step s

end Entities

end RunBoard
