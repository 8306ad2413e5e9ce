import RunBoard.Client.Query
import RunBoard.Store

namespace RunBoard

abbrev Answer := (op : Operation) → Except ApiError op.Payload

structure Flight where
  id : RequestId
  operation : Operation
  deriving DecidableEq, Inhabited

structure Traffic where
  store : Store
  flights : List Flight
  deriving Inhabited

namespace Traffic

def start (t : Traffic) (id : RequestId) (operation : Operation) : Traffic where
  store := t.store.dispatch { id := some id, operation, phase := .pending }
  flights := t.flights ++ [{ id, operation }]

/-- The answer to a flight; an id that is not on its way changes nothing. -/
def settle (t : Traffic) (id : RequestId) (answer : Answer) : Traffic :=
  match t.flights.find? (·.id == id) with
  | none => t
  | some flight =>
    { store := t.store.dispatch
        { id := some id, operation := flight.operation
          phase := .ofAnswer (answer flight.operation) }
      flights := t.flights.filter (·.id != id) }

def abandon (t : Traffic) (ids : List RequestId) : Traffic :=
  { t with flights := t.flights.filter fun flight => !ids.contains flight.id }

def change (t : Traffic) (what : Store.Change) : Traffic := { t with store := t.store.apply what }

end Traffic

end RunBoard
