import RunBoard.Entities.Absorb
import RunBoard.Request.Tracker

namespace RunBoard

structure Notice where
  operation : Operation
  error : ListingError
  deriving DecidableEq, Inhabited

structure Store where
  entities : Entities
  tracker : Tracker
  notices : List Notice
  deriving Inhabited

namespace Store

def empty : Store := { entities := .empty, tracker := ∅, notices := [] }

/-- A refused answer adds a notice; it counts as fulfilled. -/
def dispatch (s : Store) (a : Action) : Store :=
  let tracker := s.tracker.record a
  let (outcome, entities) := s.entities.reduce a
  match outcome with
  | .ok () => { s with entities, tracker }
  | .error error =>
    { entities, tracker, notices := s.notices ++ [{ operation := a.operation, error }] }

def forget (s : Store) (ids : List RequestId) : Store := { s with tracker := s.tracker.forget ids }

def drain (s : Store) : List Notice × Store := (s.notices, { s with notices := [] })

inductive Change where
  | dispatch (action : Action)
  | forget (ids : List RequestId)
  | drain
  | reset

def apply (s : Store) : Change → Store
  | .dispatch action => s.dispatch action
  | .forget ids => s.forget ids
  | .drain => s.drain.2
  | .reset => .empty

end Store

end RunBoard
