import RunBoard.Client.Traffic

namespace RunBoard

/-- A call that is not reported yet. -/
structure Errand where
  id : RequestId
  call : Call
  deriving DecidableEq, Inhabited

structure Exchange where
  errands : List Errand
  traffic : Traffic
  deriving Inhabited

namespace Exchange

inductive Event where
  | ask (id : RequestId) (command : Command)
  | start (id : RequestId)
  | settle (id : RequestId) (answer : Answer)
  | drop (id : RequestId)
  | drain

def store (x : Exchange) : Store := x.traffic.store

/-- One event; an id that has no errand or flight of the kind that it needs changes nothing. -/
def step (x : Exchange) : Event → Exchange
  | .ask id command =>
    match command.call? x.store.entities.nextPageToken with
    | none => x
    | some call => { x with errands := x.errands ++ [{ id, call }] }
  | .start id =>
    match x.errands.find? (·.id == id) with
    | none => x
    | some errand =>
      { errands := x.errands.filter (·.id != id)
        traffic := x.traffic.start id errand.call.operation }
  | .settle id answer => { x with traffic := x.traffic.settle id answer }
  | .drop id =>
    { errands := x.errands.filter (·.id != id), traffic := x.traffic.abandon [id] }
  | .drain => { x with traffic := x.traffic.change .drain }

def after (x : Exchange) (events : List Event) : Exchange := events.foldl step x

def change? (x : Exchange) : Event → Option Store.Change
  | .start id =>
    (x.errands.find? (·.id == id)).map fun errand =>
      .dispatch { id := some id, operation := errand.call.operation, phase := .pending }
  | .settle id answer =>
    (x.traffic.flights.find? (·.id == id)).map fun flight =>
      .dispatch {
        id := some id, operation := flight.operation
        phase := .ofAnswer (answer flight.operation) }
  | .drain => some .drain
  | .ask _ _ | .drop _ => none

def changes (x : Exchange) : List Event → List Store.Change
  | [] => []
  | e :: rest => (x.change? e).toList ++ (x.step e).changes rest

end Exchange

end RunBoard
