import RunBoard.Proofs.Entities.Change
import RunBoard.Proofs.Table.Assign

namespace RunBoard.Entities

structure RunPart where
  info : Option RunInfo
  params : Option (Table Label)
  tags : Option (Table Label)
  latest : Option (Table Metric)
  lowest : Option (Table Metric)
  highest : Option (Table Metric)
  histories : Option (Table (List Metric))
  tree : Option ArtifactNode
  artifactRoot : Option String

structure ExperimentPart where
  known : Option Experiment
  tags : Option (Table Label)

abbrev Part : TagOwner → Type
  | .run _ => RunPart
  | .experiment _ => ExperimentPart

def part (s : Entities) : (owner : TagOwner) → Part owner
  | .run uuid => {
      info := s.runs[uuid]?
      params := s.params[uuid]?
      tags := s.runTags[uuid]?
      latest := s.latest[uuid]?
      lowest := s.lowest[uuid]?
      highest := s.highest[uuid]?
      histories := s.histories[uuid]?
      tree := s.trees[uuid]?
      artifactRoot := s.artifactRoots[uuid]? }
  | .experiment id => { known := s.experiments[id]?, tags := s.experimentTags[id]? }

def withPart (s : Entities) : (owner : TagOwner) → Part owner → Entities
  | .run uuid, p => { s with
      runs := s.runs.assign uuid p.info
      params := s.params.assign uuid p.params
      runTags := s.runTags.assign uuid p.tags
      latest := s.latest.assign uuid p.latest
      lowest := s.lowest.assign uuid p.lowest
      highest := s.highest.assign uuid p.highest
      histories := s.histories.assign uuid p.histories
      trees := s.trees.assign uuid p.tree
      artifactRoots := s.artifactRoots.assign uuid p.artifactRoot }
  | .experiment id, p => { s with
      experiments := s.experiments.assign id p.known
      experimentTags := s.experimentTags.assign id p.tags }

theorem part_withPart (s : Entities) (owner : TagOwner) (p : Part owner) :
    (s.withPart owner p).part owner = p := by
  cases owner <;> simp only [part, withPart, Table.getElem?_assign, if_pos]

theorem withPart_withPart (s : Entities) (owner : TagOwner) (first last : Part owner) :
    (s.withPart owner first).withPart owner last = s.withPart owner last := by
  cases owner <;> simp only [withPart, Table.assign_assign]

theorem part_withPart_of_ne (s : Entities) {owner other : TagOwner} (apart : owner ≠ other)
    (p : Part owner) : (s.withPart owner p).part other = s.part other := by
  cases owner <;> cases other <;> simp_all [part, withPart, Table.getElem?_assign]

theorem withPart_comm (s : Entities) {owner other : TagOwner} (apart : owner ≠ other)
    (p : Part owner) (q : Part other) :
    (s.withPart owner p).withPart other q = (s.withPart other q).withPart owner p := by
  cases owner <;> cases other
  case run.run uuid other =>
    have keys : uuid ≠ other := fun same => apart (by rw [same])
    simp only [withPart, Table.assign_comm _ keys]
  case experiment.experiment id other =>
    have keys : id ≠ other := fun same => apart (by rw [same])
    simp only [withPart, Table.assign_comm _ keys]
  all_goals rfl

def tagPart (tags : List Label) : Option (Table Label) :=
  if tags.isEmpty then none else some (labelTable tags)

def ExperimentPart.fold (p : ExperimentPart) (e : Experiment) : ExperimentPart where
  known := some (match p.known with
    | some known => known.reconcile e
    | none => e.withoutTags)
  tags :=
    match e.tags with
    | some tags => tagPart tags
    | none => p.tags

namespace RunPart

def put (p : RunPart) (run : Run) : RunPart :=
  { p with
    info := some run.info
    params := some (labelTable run.data.params)
    tags := tagPart run.data.tags
    latest := some (Metric.latestByKey run.data.metrics)
    artifactRoot := run.info.artifactUri.or p.artifactRoot }

def putHistory (p : RunPart) (key : String) (points : List Metric) : RunPart :=
  let points := Metric.inOrder points
  { p with
    histories := Table.write p.histories key (some points)
    lowest := Table.write p.lowest key (Metric.least? (Metric.numbers points))
    highest := Table.write p.highest key (Metric.greatest? (Metric.numbers points))
    latest := Table.write p.latest key points.getLast? }

def addListing (p : RunPart) (run : String) (path : Option String) (listing : ArtifactListing) :
    Except ListingError RunPart :=
  ((p.tree.getD .root).withListing run path listing.files).map fun tree =>
    { p with tree := some tree, artifactRoot := listing.rootUri.or p.artifactRoot }

end RunPart

def Part.writeTag (key : String) (value : Option String) : {owner : TagOwner} → Part owner → Part owner
  | .run _, p => { p with tags := Table.write p.tags key (value.map (Label.mk key)) }
  | .experiment _, p => { p with tags := Table.write p.tags key (value.map (Label.mk key)) }

theorem replaceTags_eq_assign (table : Table (Table Label)) (owner : String) (tags : List Label) :
    replaceTags table owner tags = table.assign owner (tagPart tags) := by
  unfold replaceTags tagPart
  split
  · exact table.erase_eq_assign owner
  · exact table.insert_eq_assign owner (labelTable tags)

theorem setOrDrop_eq_assign {β : Type} (table : Table (Table β)) (owner key : String)
    (value : Option β) :
    setOrDrop table owner key value = table.assign owner (Table.write table[owner]? key value) := by
  cases value with
  | none => exact table.dropFrom_eq_assign owner key
  | some value => exact table.putIn_eq_assign owner key value

theorem nameRoot_eq (s : Entities) (run : String) (uri : Option String) :
    s.nameRoot run uri =
      { s with artifactRoots := s.artifactRoots.assign run (uri.or s.artifactRoots[run]?) } := by
  cases uri with
  | none => simp only [nameRoot, Option.none_or, Table.assign_self]
  | some uri => simp only [nameRoot, Option.some_or, Table.insert_eq_assign]

def rootsOf (runs : List Run) : List (String × String) :=
  runs.filterMap fun run => run.info.artifactUri.map (run.info.uuid, ·)

theorem foldl_putRun (runs : List Run) (s : Entities) :
    runs.foldl putRun s = { s with
      runs := s.runs.assignAll (·.info.uuid) (some ·.info) runs
      params := s.params.assignAll (·.info.uuid) (some <| labelTable ·.data.params) runs
      runTags := s.runTags.assignAll (·.info.uuid) (tagPart ·.data.tags) runs
      latest := s.latest.assignAll (·.info.uuid) (some <| Metric.latestByKey ·.data.metrics) runs
      artifactRoots := s.artifactRoots.assignAll (·.1) (some ·.2) (rootsOf runs) } := by
  induction runs generalizing s with
  | nil => rfl
  | cons run rest ih =>
    have first : (s.putRun run).artifactRoots.assignAll (·.1) (some ·.2) (rootsOf rest) =
        s.artifactRoots.assignAll (·.1) (some ·.2) (rootsOf (run :: rest)) := by
      cases uri : run.info.artifactUri <;>
        simp only [putRun, putRunInfo, putRunData, nameRoot, rootsOf, uri, List.filterMap_cons, Option.map_none,
          Option.map_some, Table.insert_eq_assign, Table.assignAll, List.foldl_cons]
    rw [List.foldl_cons, ih, first]
    simp only [putRun, putRunInfo, putRunData, nameRoot, replaceTags_eq_assign, Table.insert_eq_assign,
      Table.assignAll, List.foldl_cons]

theorem foldExperiment_eq (s : Entities) (e : Experiment) :
    s.foldExperiment e =
      s.withPart (.experiment e.id) (ExperimentPart.fold (s.part (.experiment e.id)) e) := by
  simp only [foldExperiment, withPart, part, ExperimentPart.fold, Table.insert_eq_assign]
  cases e.tags with
  | none => cases s.experiments[e.id]? <;> simp only [Table.assign_self]
  | some tags => cases s.experiments[e.id]? <;> simp only [replaceTags_eq_assign]

theorem putRun_eq (s : Entities) (run : Run) :
    s.putRun run =
      s.withPart (.run run.info.uuid) (RunPart.put (s.part (.run run.info.uuid)) run) := by
  simp only [putRun, putRunInfo, putRunData, nameRoot_eq, withPart, part, RunPart.put,
    replaceTags_eq_assign, Table.insert_eq_assign, Table.assign_self]

theorem replaceHistory_eq (s : Entities) (run key : String) (points : List Metric) :
    s.replaceHistory run key points =
      s.withPart (.run run) (RunPart.putHistory (s.part (.run run)) key points) := by
  simp only [replaceHistory, withPart, part, RunPart.putHistory, setOrDrop_eq_assign,
    Table.putIn_eq_assign, Table.assign_self]

theorem putTree_eq (s : Entities) (run : String) (path : Option String)
    (listing : ArtifactListing) :
    ((s.treeOf run).withListing run path listing.files).map
        (fun tree => (s.putTree run tree).nameRoot run listing.rootUri) =
      (RunPart.addListing (s.part (.run run)) run path listing).map (s.withPart (.run run)) := by
  simp only [RunPart.addListing, treeOf, part]
  cases (s.trees[run]?.getD .root).withListing run path listing.files with
  | error e => rfl
  | ok tree =>
    simp only [Except.map, putTree, nameRoot_eq, withPart, Table.insert_eq_assign, Table.assign_self]

theorem putTag_eq (s : Entities) (owner : TagOwner) (key value : String) :
    s.putTag owner key value =
      s.withPart owner (Part.writeTag key (some value) (s.part owner)) := by
  cases owner <;>
    simp only [putTag, withPart, part, Part.writeTag, Option.map_some, Table.putIn_eq_assign,
      Table.assign_self]

theorem dropTag_eq (s : Entities) (owner : TagOwner) (key : String) :
    s.dropTag owner key = s.withPart owner (Part.writeTag key none (s.part owner)) := by
  cases owner <;>
    simp only [dropTag, withPart, part, Part.writeTag, Option.map_none, Table.dropFrom_eq_assign,
      Table.assign_self]

end RunBoard.Entities
