import RunBoard.Entities.Absorb

namespace RunBoard

namespace Entities

def paramsOf (s : Entities) (run : String) : Option (Table Label) := s.params[run]?

def tagsOf (s : Entities) : TagOwner → Option (Table Label)
  | .run uuid => s.runTags[uuid]?
  | .experiment id => s.experimentTags[id]?

def idLe (a b : Experiment) : Bool := a.id ≤ b.id

def allExperiments (s : Entities) : List Experiment := s.experiments.values.mergeSort idLe

/-- Newest start time first, runs without one last; equal ones by uuid. -/
def startedBefore (a b : RunInfo) : Bool :=
  match a.startTime, b.startTime with
  | some x, some y => y < x || (x == y && a.uuid ≤ b.uuid)
  | some _, none => true
  | none, some _ => false
  | none, none => a.uuid ≤ b.uuid

def runsOf (s : Entities) (experimentId : String) : List RunInfo :=
  (s.runs.values.filter (·.experimentId == experimentId)).mergeSort startedBefore

def latestTimestamp (s : Entities) (run : String) : Option Int64 :=
  s.latest[run]?.bind fun points => (points.values.map (·.timestamp)).max?

def versionsOf (s : Entities) (run : String) : List ModelVersion := s.modelVersions[run]?.getD []

def versionsAt (s : Entities) (run path : String) : List ModelVersion :=
  match s.artifactRoots[run]? with
  | some root => Path.versionsAt (s.versionsOf run) root path
  | none => []

end Entities

end RunBoard
