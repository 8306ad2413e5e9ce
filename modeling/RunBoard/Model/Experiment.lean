import RunBoard.Model.Label

namespace RunBoard

inductive LifecycleStage where
  | active
  | deleted
  deriving DecidableEq, Inhabited

namespace LifecycleStage

def name : LifecycleStage → String
  | active => "active"
  | deleted => "deleted"

def ofName? : String → Option LifecycleStage
  | "active" => some active
  | "deleted" => some deleted
  | _ => none

instance : JsonForm LifecycleStage where
  encode stage := .str stage.name
  decode? j := j.alternative?.bind ofName?

end LifecycleStage

structure Experiment where
  id : String
  name : String
  artifactLocation : Option String
  stage : Option LifecycleStage
  creationTime : Option Int64
  lastUpdateTime : Option Int64
  /-- Absent when an answer did not carry tags. -/
  tags : Option (List Label)
  deriving DecidableEq, Inhabited

namespace Experiment

def named (id name : String) : Experiment :=
  { id, name, artifactLocation := none, stage := none, creationTime := none,
    lastUpdateTime := none, tags := none }

def withoutTags (e : Experiment) : Experiment := { e with tags := none }

/-- Folds an answer, which may be partial, into what is known: id and name are the answer's, and
every other field is the answer's where it has one. -/
def reconcile (known answer : Experiment) : Experiment where
  id := answer.id
  name := answer.name
  artifactLocation := answer.artifactLocation.or known.artifactLocation
  stage := answer.stage.or known.stage
  creationTime := answer.creationTime.or known.creationTime
  lastUpdateTime := answer.lastUpdateTime.or known.lastUpdateTime
  tags := none

instance : JsonForm Experiment where
  encode e := .obj [
    ("experiment_id", encode e.id),
    ("name", encode e.name),
    ("artifact_location", encode e.artifactLocation),
    ("lifecycle_stage", encode e.stage),
    ("creation_time", encode e.creationTime),
    ("last_update_time", encode e.lastUpdateTime),
    ("tags", encode e.tags)]
  decode? j := do
    let [id, name, location, stage, created, updated, tags] ← j.record?
      ["experiment_id", "name", "artifact_location", "lifecycle_stage", "creation_time",
        "last_update_time", "tags"] | none
    return {
      id := ← Json.required? id
      name := ← Json.required? name
      artifactLocation := ← Json.optional? location
      stage := ← Json.optional? stage
      creationTime := ← Json.optional? created
      lastUpdateTime := ← Json.optional? updated
      tags := ← Json.optional? tags }

end Experiment

end RunBoard
