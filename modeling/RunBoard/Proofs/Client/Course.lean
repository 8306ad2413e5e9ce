import RunBoard.Proofs.Client.Dispatched

namespace RunBoard.Exchange

namespace Event

def asked? : Event → Option RequestId
  | ask id _ => some id
  | _ => none

def end? (id : RequestId) : Event → Option (Option Answer)
  | settle own answer => if own = id then some (some answer) else none
  | drop own => if own = id then some none else none
  | _ => none

end Event

def errand? (x : Exchange) (id : RequestId) : Option Errand := x.errands.find? (·.id == id)

def flight? (x : Exchange) (id : RequestId) : Option Flight :=
  x.traffic.flights.find? (·.id == id)

def reports (x : Exchange) (events : List Event) (id : RequestId) : List Action :=
  (x.dispatched events).filter (·.id == some id)

theorem find?_without {α : Type} (key : α → RequestId) (items : List α) (own id : RequestId) :
    (items.filter (key · != own)).find? (key · == id) =
      if own = id then none else items.find? (key · == id) := by
  rw [List.find?_filter]
  split
  · rename_i same
    subst same
    simp
  · rename_i apart
    congr 1
    funext item
    by_cases here : key item = id <;> simp [here, Ne.symm apart]

theorem errand?_step (x : Exchange) (e : Event) (id : RequestId) :
    (x.step e).errand? id =
      match e with
      | .ask own command =>
        if own = id then
          (x.errand? id).or
            ((command.call? x.store.entities.nextPageToken).map fun call => { id, call })
        else x.errand? id
      | .start own | .drop own => if own = id then none else x.errand? id
      | .settle _ _ | .drain => x.errand? id := by
  cases e with
  | ask own command =>
    simp only [step, errand?]
    cases command.call? x.store.entities.nextPageToken with
    | none => simp
    | some call =>
      by_cases same : own = id <;> simp [List.find?_append, same]
  | start own =>
    simp only [step, errand?]
    split
    · rename_i missing
      split
      · rename_i same
        rw [← same, missing]
      · rfl
    · exact find?_without Errand.id x.errands own id
  | drop own => exact find?_without Errand.id x.errands own id
  | settle _ _ | drain => rfl

theorem flight?_step (x : Exchange) (e : Event) (id : RequestId) :
    (x.step e).flight? id =
      match e with
      | .start own =>
        if own = id then
          (x.flight? id).or
            ((x.errand? id).map fun errand => { id, operation := errand.call.operation })
        else x.flight? id
      | .settle own _ | .drop own => if own = id then none else x.flight? id
      | .ask _ _ | .drain => x.flight? id := by
  cases e with
  | ask own command =>
    simp only [step]
    split <;> rfl
  | start own =>
    simp only [step, flight?, errand?]
    by_cases same : own = id
    · subst same
      cases x.errands.find? (·.id == own) <;> simp [Traffic.start, List.find?_append]
    · cases x.errands.find? (·.id == own) <;> simp [Traffic.start, List.find?_append, same]
  | settle own answer =>
    simp only [step, flight?, Traffic.settle]
    split
    · rename_i missing
      split
      · rename_i same
        rw [← same, missing]
      · rfl
    · exact find?_without Flight.id x.traffic.flights own id
  | drop own =>
    have others : (x.traffic.abandon [own]).flights = x.traffic.flights.filter (·.id != own) := by
      simp [Traffic.abandon, bne, beq_eq_decide]
    simp only [step, flight?, others]
    exact find?_without Flight.id x.traffic.flights own id
  | drain => rfl

theorem reports_step (x : Exchange) (e : Event) (id : RequestId) :
    x.reports [e] id =
      match e with
      | .start own =>
        if own = id then
          ((x.errand? id).map fun errand =>
            ({ id := some id, operation := errand.call.operation, phase := .pending } : Action)).toList
        else []
      | .settle own answer =>
        if own = id then
          ((x.flight? id).map fun flight =>
            ({ id := some id, operation := flight.operation
               phase := .ofAnswer (answer flight.operation) } : Action)).toList
        else []
      | .ask _ _ | .drop _ | .drain => [] := by
  cases e with
  | ask _ _ | drop _ | drain => rfl
  | start own =>
    simp only [reports, dispatched, changes, change?, errand?]
    by_cases same : own = id
    · subst same
      cases x.errands.find? (·.id == own) <;> simp [Store.Change.action?]
    · cases x.errands.find? (·.id == own) <;> simp [Store.Change.action?, same]
  | settle own answer =>
    simp only [reports, dispatched, changes, change?, flight?]
    by_cases same : own = id
    · subst same
      cases x.traffic.flights.find? (·.id == own) <;> simp [Store.Change.action?]
    · cases x.traffic.flights.find? (·.id == own) <;> simp [Store.Change.action?, same]

theorem reports_append (x : Exchange) (events rest : List Event) (id : RequestId) :
    x.reports (events ++ rest) id = x.reports events id ++ (x.after events).reports rest id := by
  rw [reports, dispatched_append, List.filter_append]
  rfl

theorem reports_cons (x : Exchange) (e : Event) (rest : List Event) (id : RequestId) :
    x.reports (e :: rest) id = x.reports [e] id ++ (x.step e).reports rest id :=
  x.reports_append [e] rest id

theorem silent_after {id : RequestId} {P : Exchange → Prop} {Kind : Event → Prop}
    (step : ∀ x e, P x → Kind e → P (x.step e) ∧ x.reports [e] id = [])
    {x : Exchange} (start : P x) {events : List Event} (kind : ∀ e ∈ events, Kind e) :
    P (x.after events) ∧ x.reports events id = [] := by
  induction events generalizing x with
  | nil => exact ⟨start, rfl⟩
  | cons e rest ih =>
    obtain ⟨first, later⟩ := List.forall_mem_cons.mp kind
    obtain ⟨next, unreported⟩ := step x e start first
    obtain ⟨last, unreportedLater⟩ := ih next later
    rw [reports_cons, unreported, unreportedLater]
    exact ⟨last, rfl⟩

/-- There is nothing under an id: it was not asked for yet, or its call has ended. -/
def Idle (x : Exchange) (id : RequestId) : Prop := x.errand? id = none ∧ x.flight? id = none

def Waits (x : Exchange) (id : RequestId) (call : Call) : Prop :=
  x.errand? id = some { id, call } ∧ x.flight? id = none

def Flies (x : Exchange) (id : RequestId) (op : Operation) : Prop :=
  x.errand? id = none ∧ x.flight? id = some { id, operation := op }

section Course

variable {x : Exchange} {id : RequestId} {call : Call} {op : Operation} {events : List Event}

theorem Idle.after (idle : x.Idle id) (unasked : ∀ e ∈ events, e.asked? ≠ some id) :
    (x.after events).Idle id ∧ x.reports events id = [] := by
  refine silent_after (P := (·.Idle id)) ?_ idle unasked
  rintro x e ⟨noErrand, noFlight⟩ unasked
  rw [Idle, errand?_step, flight?_step, reports_step]
  cases e with
  | ask own command =>
    have apart : own ≠ id := fun same => unasked (congrArg some same)
    simp [noErrand, noFlight, apart]
  | start _ | settle _ _ | drop _ | drain => simp [noErrand, noFlight]

theorem Idle.ask {command : Command} (idle : x.Idle id)
    (known : command.call? x.store.entities.nextPageToken = some call) :
    (x.step (.ask id command)).Waits id call ∧ x.reports [.ask id command] id = [] := by
  obtain ⟨noErrand, noFlight⟩ := idle
  rw [Waits, errand?_step, flight?_step]
  simp [noErrand, noFlight, known, reports_step]

theorem Waits.after (waits : x.Waits id call)
    (others : ∀ e ∈ events, e.asked? ≠ some id ∧ e ≠ .start id ∧ e ≠ .drop id) :
    (x.after events).Waits id call ∧ x.reports events id = [] := by
  refine silent_after (P := (·.Waits id call)) ?_ waits others
  rintro x e ⟨errand, noFlight⟩ ⟨unasked, unstarted, kept⟩
  rw [Waits, errand?_step, flight?_step, reports_step]
  cases e with
  | ask own command =>
    have apart : own ≠ id := fun same => unasked (congrArg some same)
    simp [errand, noFlight, apart]
  | start own =>
    have apart : own ≠ id := fun same => unstarted (congrArg Event.start same)
    simp [errand, noFlight, apart]
  | drop own =>
    have apart : own ≠ id := fun same => kept (congrArg Event.drop same)
    simp [errand, noFlight, apart]
  | settle _ _ | drain => simp [errand, noFlight]

theorem Waits.start (waits : x.Waits id call) :
    (x.step (.start id)).Flies id call.operation ∧
      x.reports [.start id] id = [⟨some id, call.operation, .pending⟩] := by
  obtain ⟨errand, noFlight⟩ := waits
  rw [Flies, errand?_step, flight?_step, reports_step]
  simp [errand, noFlight]

theorem Flies.step {e : Event} (flies : x.Flies id op) (unasked : e.asked? ≠ some id)
    (unended : e.end? id = none) : (x.step e).Flies id op ∧ x.reports [e] id = [] := by
  obtain ⟨noErrand, flight⟩ := flies
  rw [Flies, errand?_step, flight?_step, reports_step]
  cases e with
  | ask own command =>
    have apart : own ≠ id := fun same => unasked (congrArg some same)
    simp [noErrand, flight, apart]
  | settle own _ | drop own =>
    have apart : own ≠ id := fun same => by simp [Event.end?, same] at unended
    simp [noErrand, flight, apart]
  | start _ | drain => simp [noErrand, flight]

theorem Flies.after (flies : x.Flies id op)
    (others : ∀ e ∈ events, e.asked? ≠ some id ∧ e.end? id = none) :
    (x.after events).Flies id op ∧ x.reports events id = [] :=
  silent_after (P := (·.Flies id op)) (fun _ _ flies other => flies.step other.1 other.2) flies others

theorem Flies.dispatched_settle (flies : x.Flies id op) (answer : Answer) :
    x.dispatched [.settle id answer] = [⟨some id, op, .ofAnswer (answer op)⟩] := by
  have flight : x.traffic.flights.find? (·.id == id) = some { id, operation := op } := flies.2
  rw [dispatched_cons, change?, flight]
  rfl

theorem Flies.settle (flies : x.Flies id op) (answer : Answer) :
    (x.step (.settle id answer)).Idle id ∧
      x.reports [.settle id answer] id = [⟨some id, op, .ofAnswer (answer op)⟩] := by
  rw [Idle, errand?_step, flight?_step, reports, flies.dispatched_settle]
  simp [flies.1]

theorem idle_drop (x : Exchange) (id : RequestId) :
    (x.step (.drop id)).Idle id ∧ x.reports [.drop id] id = [] := by
  rw [Idle, errand?_step, flight?_step, reports_step]
  simp

/-- The answer with which events settle a call that is on its way, if they do. -/
def outcome (id : RequestId) (events : List Event) : Option Answer :=
  (events.findSome? (·.end? id)).join

def answered (id : RequestId) (op : Operation) (answer : Option Answer) : List Action :=
  (answer.map fun answer =>
    ({ id := some id, operation := op, phase := .ofAnswer (answer op) } : Action)).toList

theorem Flies.reports_after (flies : x.Flies id op) (unasked : ∀ e ∈ events, e.asked? ≠ some id) :
    x.reports events id = answered id op (outcome id events) := by
  induction events generalizing x with
  | nil => rfl
  | cons e rest ih =>
    obtain ⟨first, later⟩ := List.forall_mem_cons.mp unasked
    rw [reports_cons, outcome, List.findSome?_cons]
    cases ended : e.end? id with
    | none =>
      obtain ⟨next, unreported⟩ := flies.step first ended
      rw [unreported, ih next later]
      rfl
    | some answer =>
      cases e with
      | ask _ _ | start _ | drain => contradiction
      | settle own last =>
        obtain ⟨rfl, rfl⟩ : own = id ∧ some last = answer := by simpa [Event.end?] using ended
        obtain ⟨idle, report⟩ := flies.settle last
        rw [report, (idle.after later).2]
        rfl
      | drop own =>
        obtain ⟨rfl, rfl⟩ : own = id ∧ none = answer := by simpa [Event.end?] using ended
        obtain ⟨idle, unreported⟩ := x.idle_drop own
        rw [unreported, (idle.after later).2]
        rfl

end Course

end RunBoard.Exchange
