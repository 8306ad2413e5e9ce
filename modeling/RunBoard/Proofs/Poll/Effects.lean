import RunBoard.Proofs.Poll.Moves
import RunBoard.Proofs.Store.Requests

namespace RunBoard

theorem Traffic.settle_cases (t : Traffic) (id : RequestId) (answer : Answer) :
    ((∀ flight ∈ t.flights, flight.id ≠ id) ∧ t.settle id answer = t) ∨
      ∃ op, t.settle id answer =
        { store := t.store.dispatch ⟨some id, op, .ofAnswer (answer op)⟩
          flights := t.flights.filter (·.id != id) } := by
  unfold settle
  cases found : t.flights.find? (·.id == id) with
  | none =>
    refine .inl ⟨fun flight member => ?_, rfl⟩
    simpa using List.find?_eq_none.mp found flight member
  | some flight => exact .inr ⟨flight.operation, rfl⟩

namespace Poll

/-- Stages in which a poller that has not ended has nothing to wait for but a tick or itself. -/
def Stage.isUnasked : Stage → Bool
  | waiting | listing _ _ | calling _ [] => true
  | _ => false

theorem Stage.unasked {stage : Stage} (unasked : stage.isUnasked = true) :
    stage.ids = [] ∧ stage ≠ .closing ∧ ∀ ids, stage ≠ .settled ids := by
  cases stage with
  | waiting | listing => exact ⟨rfl, nofun, nofun⟩
  | calling left ids =>
    cases ids with
    | nil => exact ⟨rfl, nofun, nofun⟩
    | cons => contradiction
  | idle | settled | closing | stopped => contradiction

namespace Poller

variable {plan : Plan}

def tracker (p : Poller) : Tracker := p.traffic.store.tracker

inductive Effect (plan : Plan) (p : Poller) : Event → Poller → List Sent → Prop where
  | stays (e : Event) (focused : Bool) : Effect plan p e { p with focused } []
  | halts (e : Event) : Effect plan p e p.halt []
  | moves (e : Event) (stage : Stage) (running : p.stage ≠ .stopped) (noIds : p.stage.ids = [])
      (unasked : stage.isUnasked = true) : Effect plan p e { p with stage } []
  | sends (now : Int) (call : Call) (left : List Call) (ids : List RequestId)
      (here : p.stage = .calling (call :: left) ids) :
      Effect plan p (.proceed now) (p.send plan call left ids).1
        [{ id := plan.freshId p.issued, query := call.query }]
  | takes (id : RequestId) (answer : Answer) (left : List Call) (ids : List RequestId)
      (here : p.stage = .calling left ids) (own : id ∈ ids) :
      Effect plan p (.answered id answer) { p with traffic := p.traffic.settle id answer } []
  | settles (id : RequestId) (answer : Answer) (ids : List RequestId)
      (here : p.stage = .calling [] ids) (own : id ∈ ids)
      (landed : ∀ flight ∈ (p.traffic.settle id answer).flights, flight.id ∉ ids) :
      Effect plan p (.answered id answer)
        { p with stage := .settled ids, traffic := p.traffic.settle id answer } []
  | forgets (now : Int) (ids : List RequestId) (here : p.stage = .settled ids) :
      Effect plan p (.proceed now) (p.forget ids) []
  | others (change : Store.Change) :
      Effect plan p (.others change) { p with traffic := p.traffic.change change } []

theorem effect_tick (p : Poller) (now : Int) : Effect plan p (.tick now) (p.tick plan now) [] := by
  unfold tick continueAt
  split
  · rename_i ready
    split
    · exact .halts _
    · refine .moves _ _ ?_ ?_ rfl <;> rw [ready.1]
      · nofun
      · rfl
  · exact .stays _ p.focused

theorem effect_proceed (p : Poller) (now : Int) :
    Effect plan p (.proceed now) (p.proceed plan now).1 (p.proceed plan now).2 := by
  have listing {left : List String} {calls : List Call} (here : p.stage = .listing left calls) :
      p.stage ≠ .stopped ∧ p.stage.ids = [] := by
    rw [here]
    exact ⟨nofun, rfl⟩
  unfold proceed
  split
  · rename_i run left calls here
    exact .moves _ _ (listing here).1 (listing here).2 rfl
  · rename_i calls here
    exact .moves _ _ (listing here).1 (listing here).2 rfl
  · rename_i call left ids here
    exact .sends now call left ids here
  · rename_i ids here
    exact .forgets now ids here
  · rename_i here
    unfold continueAt
    split
    · exact .halts _
    · refine .moves _ _ ?_ ?_ rfl <;> rw [here]
      · nofun
      · rfl
  · exact .stays _ p.focused

theorem effect_settle (p : Poller) (id : RequestId) (answer : Answer) :
    Effect plan p (.answered id answer) (p.settle id answer) [] := by
  unfold settle
  split
  · rename_i left ids here
    split
    · rename_i own
      have own : id ∈ ids := by simpa using own
      dsimp only
      split
      · rename_i done
        simp only [Bool.and_eq_true, List.isEmpty_iff, List.all_eq_true, Bool.not_eq_true',
          List.contains_eq_mem, decide_eq_false_iff_not] at done
        obtain ⟨rfl, landed⟩ := done
        exact .settles id answer ids here own landed
      · have kept : Effect plan p (.answered id answer)
            { p with traffic := p.traffic.settle id answer } [] := .takes id answer left ids here own
        rwa [← here]
    · exact .stays _ p.focused
  · exact .stays _ p.focused

theorem step_effect (p : Poller) (plan : Plan) (e : Event) :
    Effect plan p e (p.step plan e).1 (p.step plan e).2 := by
  cases e with
  | focus => exact .stays _ true
  | blur => exact .stays _ false
  | stop | closed => exact .halts _
  | tick now => exact p.effect_tick now
  | proceed now => exact p.effect_proceed now
  | answered id answer => exact p.effect_settle id answer
  | others change => exact .others change

theorem getElem?_tracker_send (p : Poller) (plan : Plan) (call : Call) (left : List Call)
    (ids : List RequestId) (id : RequestId) :
    (p.send plan call left ids).1.tracker[id]? =
      if plan.freshId p.issued = id then some (.of id .pending) else p.tracker[id]? := by
  have recorded := p.tracker.getElem?_record
    ⟨some (plan.freshId p.issued), call.operation, .pending⟩ id
  rw [tracker, ← Store.tracker_dispatch] at recorded
  simp only [Option.some.injEq] at recorded
  exact recorded

theorem getElem?_tracker_forget (p : Poller) (ids : List RequestId) (id : RequestId) :
    (p.forget ids).tracker[id]? = if id ∈ p.previous then none else p.tracker[id]? :=
  p.tracker.getElem?_forget p.previous id

theorem tracker_settle_cases (p : Poller) (id : RequestId) (answer : Answer) :
    ((∀ flight ∈ p.traffic.flights, flight.id ≠ id) ∧ p.traffic.settle id answer = p.traffic) ∨
      (p.traffic.settle id answer).flights = p.traffic.flights.filter (·.id != id) ∧
        ∃ state, state.active = false ∧ ∀ other, (p.traffic.settle id answer).store.tracker[other]? =
          if id = other then some state else p.tracker[other]? := by
  rcases p.traffic.settle_cases id answer with same | ⟨op, settled⟩
  · exact .inl same
  · refine .inr ⟨by rw [settled], .of id ((Phase.ofAnswer (answer op)).map op.snapshot), ?_, ?_⟩
    · cases answer op <;> rfl
    · intro other
      rw [settled, Store.tracker_dispatch, Tracker.getElem?_record]
      simp only [Option.some.injEq]
      split
      · rename_i same
        rw [same]
        rfl
      · rfl

end Poller

end Poll

end RunBoard
