import RunBoard.Model.Run
import RunBoard.Model.Artifact
import RunBoard.Model.ApiError

namespace RunBoard

abbrev RequestId := String

inductive Phase (α : Type) where
  | pending
  | fulfilled (payload : α)
  | rejected (error : ApiError)
  deriving DecidableEq, Inhabited

namespace Phase

variable {α β : Type}

def ofAnswer : Except ApiError α → Phase α
  | .ok payload => fulfilled payload
  | .error e => rejected e

def map (f : α → β) : Phase α → Phase β
  | pending => pending
  | fulfilled payload => fulfilled (f payload)
  | rejected e => rejected e

def payload? : Phase α → Option α
  | fulfilled payload => some payload
  | _ => none

end Phase

inductive Operation where
  | listExperiments
  | getExperiment (id : String)
  | getRun (uuid : String)
  | searchRuns
  | loadMoreRuns
  | getMetricHistory (run key : String)
  | listArtifacts (run : String) (path : Option String)
  | setTag (owner : TagOwner) (key value : String)
  | deleteTag (owner : TagOwner) (key : String)
  | searchModelVersions
  deriving DecidableEq, Inhabited

namespace Operation

abbrev Payload : Operation → Type
  | listExperiments => List Experiment
  | getExperiment _ => Experiment
  | getRun _ => Run
  | searchRuns => RunPage
  | loadMoreRuns => RunPage
  | getMetricHistory _ _ => List Metric
  | listArtifacts _ _ => ArtifactListing
  | setTag _ _ _ => Unit
  | deleteTag _ _ => Unit
  | searchModelVersions => List ModelVersion

def name : Operation → String
  | listExperiments => "list_experiments"
  | getExperiment _ => "get_experiment"
  | getRun _ => "get_run"
  | searchRuns => "search_runs"
  | loadMoreRuns => "load_more_runs"
  | getMetricHistory _ _ => "get_metric_history"
  | listArtifacts _ _ => "list_artifacts"
  | setTag _ _ _ => "set_tag"
  | deleteTag _ _ => "delete_tag"
  | searchModelVersions => "search_model_versions"

def encodePayload : (op : Operation) → op.Payload → Json
  | listExperiments, payload => encode payload
  | getExperiment _, payload => encode payload
  | getRun _, payload => encode payload
  | searchRuns, payload => encode payload
  | loadMoreRuns, payload => encode payload
  | getMetricHistory _ _, payload => encode payload
  | listArtifacts _ _, payload => encode payload
  | setTag _ _ _, payload => encode payload
  | deleteTag _ _, payload => encode payload
  | searchModelVersions, payload => encode payload

def decodePayload? : (op : Operation) → Json → Option op.Payload
  | listExperiments, j => decode? j
  | getExperiment _, j => decode? j
  | getRun _, j => decode? j
  | searchRuns, j => decode? j
  | loadMoreRuns, j => decode? j
  | getMetricHistory _ _, j => decode? j
  | listArtifacts _ _, j => decode? j
  | setTag _ _ _, j => decode? j
  | deleteTag _ _, j => decode? j
  | searchModelVersions, j => decode? j

def snapshot (op : Operation) (payload : op.Payload) : Json :=
  (op.encodePayload payload).withoutNonFinite

end Operation

/-- An action without an id is not tracked. -/
structure Action where
  id : Option RequestId
  operation : Operation
  phase : Phase operation.Payload

namespace Action

def untracked (operation : Operation) (phase : Phase operation.Payload) : Action :=
  { id := none, operation, phase }

def progress (a : Action) : Phase Json := a.phase.map a.operation.snapshot

end Action

end RunBoard
