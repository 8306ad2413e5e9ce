import RunBoard.Artifact.Tree
import RunBoard.Request.Action

namespace RunBoard

/-- Tables by run are keyed by its uuid; inner tables by param, tag or metric key. -/
structure Entities where
  experiments : Table Experiment
  experimentTags : Table (Table Label)
  runs : Table RunInfo
  params : Table (Table Label)
  runTags : Table (Table Label)
  latest : Table (Table Metric)
  lowest : Table (Table Metric)
  highest : Table (Table Metric)
  histories : Table (Table (List Metric))
  trees : Table ArtifactNode
  artifactRoots : Table String
  modelVersions : Table (List ModelVersion)
  nextPageToken : Option String

namespace Entities

def empty : Entities where
  experiments := ∅
  experimentTags := ∅
  runs := ∅
  params := ∅
  runTags := ∅
  latest := ∅
  lowest := ∅
  highest := ∅
  histories := ∅
  trees := ∅
  artifactRoots := ∅
  modelVersions := ∅
  nextPageToken := none

instance : Inhabited Entities := ⟨empty⟩

end Entities

end RunBoard
