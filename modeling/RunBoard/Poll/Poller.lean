import RunBoard.Client.Traffic
import RunBoard.Entities.Select
import RunBoard.Settings.Basic

namespace RunBoard.Poll

/-- A run hangs when its last point is older than the threshold; one without points does not. Times
are milliseconds. The age is exact, which in 64 bits it is only within the range of
`isHanging_eq_int64`. -/
def isHanging (latest : Option Int64) (now threshold : Int) : Bool :=
  latest.any fun time => threshold < now - time.toInt

theorem isHanging_eq_int64 {time now : Int64} (threshold : Int64)
    (low : Int64.minValue.toInt ≤ now.toInt - time.toInt)
    (high : now.toInt - time.toInt ≤ Int64.maxValue.toInt) :
    isHanging (some time) now.toInt threshold.toInt = decide (threshold < now - time) := by
  have age : (now - time).toInt = now.toInt - time.toInt := by
    rw [Int64.toInt_sub]
    exact Int.bmod_eq_of_le low (Int.lt_of_le_of_lt high (by decide))
  rw [isHanging, Option.any_some, decide_eq_decide, Int64.lt_iff_toInt_lt, age]

def isActive (s : Entities) (now threshold : Int) (run : String) : Bool :=
  s.runs[run]?.any fun info =>
    !info.status.isTerminal && !isHanging (s.latestTimestamp run) now threshold

def activeRuns (s : Entities) (runs : List String) (now threshold : Int) : List String :=
  runs.filter (isActive s now threshold)

structure Plan where
  runs : List String
  /-- Empty for every metric that a run has logged. -/
  metricKeys : List String
  threshold : Int
  freshId : Nat → RequestId

inductive Status where
  | idle
  | polling
  | stopped
  deriving DecidableEq, Inhabited

inductive Stage where
  | idle
  | waiting
  | listing (left : List String) (calls : List Call)
  | calling (left : List Call) (ids : List RequestId)
  | settled (ids : List RequestId)
  | closing
  | stopped
  deriving DecidableEq, Inhabited

namespace Stage

def status : Stage → Status
  | idle => .idle
  | stopped => .stopped
  | _ => .polling

def ids : Stage → List RequestId
  | calling _ ids | settled ids => ids
  | _ => []

end Stage

structure Poller where
  stage : Stage
  focused : Bool
  previous : List RequestId
  traffic : Traffic
  issued : Nat
  deriving Inhabited

/-- What happens to a poller that has started. A command counts when the poller takes it up. Times
are wall-clock milliseconds. -/
inductive Event where
  | focus
  | blur
  | stop
  | closed
  | tick (now : Int)
  /-- The poller goes on with its round where it has no answer to wait for. -/
  | proceed (now : Int)
  | answered (id : RequestId) (answer : Answer)
  | others (change : Store.Change)

structure Sent where
  id : RequestId
  query : Query
  deriving DecidableEq, Inhabited

namespace Poller

def status (p : Poller) : Status := p.stage.status

def new (store : Store) (focused : Bool) : Poller :=
  { stage := .idle, focused, previous := [], traffic := { store, flights := [] }, issued := 0 }

def active (p : Poller) (plan : Plan) (now : Int) : List String :=
  activeRuns p.traffic.store.entities plan.runs now plan.threshold

def keysOf (p : Poller) (plan : Plan) (run : String) : List String :=
  if plan.metricKeys.isEmpty then (p.traffic.store.entities.latest[run]?.getD ∅).keys
  else plan.metricKeys

def callsOf (run : String) (keys : List String) : List Call :=
  keys.map (fun key => ⟨.getMetricHistory run key, .getMetricHistory run key⟩) ++
    [⟨.getRun run, .getRun run⟩]

def halt (p : Poller) : Poller :=
  { p with stage := .stopped, traffic := p.traffic.abandon p.stage.ids }

def continueAt (p : Poller) (plan : Plan) (now : Int) (stage : Stage) : Poller :=
  if (p.active plan now).isEmpty then p.halt else { p with stage }

def start (p : Poller) (plan : Plan) (now : Int) : Poller := p.continueAt plan now .waiting

def tick (p : Poller) (plan : Plan) (now : Int) : Poller :=
  if p.stage = .waiting ∧ p.focused = true then
    p.continueAt plan now (.listing (p.active plan now) [])
  else p

def send (p : Poller) (plan : Plan) (call : Call) (left : List Call) (ids : List RequestId) :
    Poller × List Sent :=
  let id := plan.freshId p.issued
  ({ p with
      stage := .calling left (ids ++ [id])
      traffic := p.traffic.start id call.operation
      issued := p.issued + 1 },
    [{ id, query := call.query }])

def forget (p : Poller) (ids : List RequestId) : Poller :=
  { p with
    stage := .closing
    previous := ids
    traffic := p.traffic.change (.forget p.previous) }

def proceed (p : Poller) (plan : Plan) (now : Int) : Poller × List Sent :=
  match p.stage with
  | .listing (run :: left) calls =>
    ({ p with stage := .listing left (calls ++ callsOf run (p.keysOf plan run)) }, [])
  | .listing [] calls => ({ p with stage := .calling calls [] }, [])
  | .calling (call :: left) ids => p.send plan call left ids
  | .settled ids => (p.forget ids, [])
  | .closing => (p.continueAt plan now .waiting, [])
  | _ => (p, [])

/-- The answer to a call of the round. The round is settled when it has made all its calls and none
of them is on its way. -/
def settle (p : Poller) (id : RequestId) (answer : Answer) : Poller :=
  match p.stage with
  | .calling left ids =>
    if ids.contains id then
      let traffic := p.traffic.settle id answer
      let done := left.isEmpty && traffic.flights.all fun flight => !ids.contains flight.id
      { p with stage := if done then .settled ids else .calling left ids, traffic }
    else p
  | _ => p

def step (plan : Plan) (p : Poller) : Event → Poller × List Sent
  | .focus => ({ p with focused := true }, [])
  | .blur => ({ p with focused := false }, [])
  | .stop | .closed => (p.halt, [])
  | .tick now => (p.tick plan now, [])
  | .proceed now => p.proceed plan now
  | .answered id answer => (p.settle id answer, [])
  | .others change => ({ p with traffic := p.traffic.change change }, [])

def run (plan : Plan) (p : Poller) (events : List Event) : Poller × List Sent :=
  events.foldl
    (fun state event =>
      let (p, sent) := state.1.step plan event
      (p, state.2 ++ sent))
    (p, [])

end Poller

end RunBoard.Poll
