import RunBoard.Model.Experiment

namespace RunBoard

inductive RunStatus where
  | running
  | scheduled
  | finished
  | failed
  | killed
  deriving DecidableEq, Inhabited

namespace RunStatus

def isTerminal : RunStatus → Bool
  | finished | failed | killed => true
  | running | scheduled => false

def name : RunStatus → String
  | running => "RUNNING"
  | scheduled => "SCHEDULED"
  | finished => "FINISHED"
  | failed => "FAILED"
  | killed => "KILLED"

def ofName? : String → Option RunStatus
  | "RUNNING" => some running
  | "SCHEDULED" => some scheduled
  | "FINISHED" => some finished
  | "FAILED" => some failed
  | "KILLED" => some killed
  | _ => none

instance : JsonForm RunStatus where
  encode status := .str status.name
  decode? j := j.alternative?.bind ofName?

end RunStatus

/-- Times are milliseconds since 1970. -/
structure RunInfo where
  uuid : String
  experimentId : String
  name : Option String
  userId : Option String
  status : RunStatus
  startTime : Option Int64
  endTime : Option Int64
  artifactUri : Option String
  stage : LifecycleStage
  deriving DecidableEq, Inhabited

namespace RunInfo

def new (uuid experimentId : String) (status : RunStatus) : RunInfo :=
  { uuid, experimentId, name := none, userId := none, status, startTime := none, endTime := none,
    artifactUri := none, stage := .active }

def withArtifactUri (info : RunInfo) (uri : String) : RunInfo := { info with artifactUri := some uri }

instance : JsonForm RunInfo where
  encode r := .obj [
    ("run_uuid", encode r.uuid),
    ("experiment_id", encode r.experimentId),
    ("run_name", encode r.name),
    ("user_id", encode r.userId),
    ("status", encode r.status),
    ("start_time", encode r.startTime),
    ("end_time", encode r.endTime),
    ("artifact_uri", encode r.artifactUri),
    ("lifecycle_stage", encode r.stage)]
  decode? j := do
    let [uuid, experimentId, name, userId, status, start, finish, uri, stage] ← j.record?
      ["run_uuid", "experiment_id", "run_name", "user_id", "status", "start_time", "end_time",
        "artifact_uri", "lifecycle_stage"] | none
    return {
      uuid := ← Json.required? uuid
      experimentId := ← Json.required? experimentId
      name := ← Json.optional? name
      userId := ← Json.optional? userId
      status := ← Json.required? status
      startTime := ← Json.optional? start
      endTime := ← Json.optional? finish
      artifactUri := ← Json.optional? uri
      stage := ← Json.defaulted? .active stage }

end RunInfo

structure Metric where
  key : String
  value : Binary64
  timestamp : Int64
  step : Int64
  deriving DecidableEq, Inhabited

namespace Metric

def notAfter (a b : Metric) : Bool :=
  a.step < b.step || (a.step == b.step && a.timestamp ≤ b.timestamp)

def loggedAt (m : Metric) : Option Int64 :=
  if -8334601228800000 ≤ m.timestamp ∧ m.timestamp ≤ 8210266876799999 then some m.timestamp else none

instance : JsonForm Metric where
  encode m := .obj [
    ("key", encode m.key),
    ("value", encode m.value),
    ("timestamp", encode m.timestamp),
    ("step", encode m.step)]
  decode? j := do
    let [key, value, timestamp, step] ← j.record? ["key", "value", "timestamp", "step"] | none
    return {
      key := ← Json.required? key
      value := ← Json.required? value
      timestamp := ← Json.required? timestamp
      step := ← Json.defaulted? 0 step }

end Metric

structure RunData where
  params : List Label
  tags : List Label
  metrics : List Metric
  deriving DecidableEq, Inhabited

namespace RunData

def none : RunData := { params := [], tags := [], metrics := [] }

instance : JsonForm RunData where
  encode d := .obj [
    ("params", encode d.params),
    ("tags", encode d.tags),
    ("metrics", encode d.metrics)]
  decode? j := do
    let [params, tags, metrics] ← j.record? ["params", "tags", "metrics"] | .none
    return {
      params := ← Json.defaulted? [] params
      tags := ← Json.defaulted? [] tags
      metrics := ← Json.defaulted? [] metrics }

end RunData

structure Run where
  info : RunInfo
  data : RunData
  deriving DecidableEq, Inhabited

instance : JsonForm Run where
  encode r := .obj [("info", encode r.info), ("data", encode r.data)]
  decode? j := do
    let [info, data] ← j.record? ["info", "data"] | none
    return { info := ← Json.required? info, data := ← Json.defaulted? .none data }

/-- One page of a search; without a token it is the last. -/
structure RunPage where
  runs : List Run
  nextPageToken : Option String
  deriving DecidableEq, Inhabited

namespace RunPage

def empty : RunPage := { runs := [], nextPageToken := none }

instance : JsonForm RunPage where
  encode p := .obj [("runs", encode p.runs), ("next_page_token", encode p.nextPageToken)]
  decode? j := do
    let [runs, token] ← j.record? ["runs", "next_page_token"] | none
    return { runs := ← Json.defaulted? [] runs, nextPageToken := ← Json.optional? token }

end RunPage

structure RunSearch where
  experimentIds : List String
  filter : Option String
  pageToken : Option String
  maxResults : Option UInt64
  deriving DecidableEq, Inhabited

namespace RunSearch

def all : RunSearch := { experimentIds := [], filter := none, pageToken := none, maxResults := none }

instance : JsonForm RunSearch where
  encode s := .obj [
    ("experiment_ids", encode s.experimentIds),
    ("filter", encode s.filter),
    ("page_token", encode s.pageToken),
    ("max_results", encode s.maxResults)]
  decode? j := do
    let [experimentIds, filter, token, maxResults] ← j.record?
      ["experiment_ids", "filter", "page_token", "max_results"] | none
    return {
      experimentIds := ← Json.required? experimentIds
      filter := ← Json.optional? filter
      pageToken := ← Json.optional? token
      maxResults := ← Json.optional? maxResults }

end RunSearch

end RunBoard
