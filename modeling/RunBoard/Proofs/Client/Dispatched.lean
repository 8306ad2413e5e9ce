import RunBoard.Client.Exchange
import RunBoard.Proofs.Entities.Log
import RunBoard.Proofs.Store.Notices

namespace RunBoard

def Store.Change.action? : Store.Change → Option Action
  | dispatch a => some a
  | _ => none

theorem Tracker.getElem?_foldl_record (t : Tracker) (log : List Action) (id : RequestId) :
    (log.foldl record t)[id]? =
      ((log.filter (·.id == some id)).map (.of id ·.progress)).getLast?.or t[id]? := by
  have writes (t : Tracker) (a : Action) : (t.record a)[id]? =
      if a.id == some id then (some (.of id a.progress)).or t[id]? else t[id]? := by
    rw [getElem?_record]
    by_cases own : a.id = some id <;> simp [own]
  rw [← List.filterMap_eq_map']
  exact Table.view_foldl (fun t : Tracker => t[id]?) (·.id == some id)
    (fun a => some (.of id a.progress)) writes log t

namespace Exchange

def dispatched (x : Exchange) (events : List Event) : List Action :=
  (x.changes events).filterMap Store.Change.action?

theorem store_step (x : Exchange) (e : Event) :
    (x.step e).store = x.store.after (x.change? e).toList := by
  cases e with
  | ask id command =>
    simp only [step]
    split <;> rfl
  | start id =>
    simp only [step, change?]
    cases x.errands.find? (·.id == id) <;> rfl
  | settle id answer =>
    simp only [step, change?, store, Traffic.settle]
    cases x.traffic.flights.find? (·.id == id) <;> rfl
  | drop | drain => rfl

theorem after_append (x : Exchange) (events rest : List Event) :
    x.after (events ++ rest) = (x.after events).after rest := List.foldl_append

theorem changes_append (x : Exchange) (events rest : List Event) :
    x.changes (events ++ rest) = x.changes events ++ (x.after events).changes rest := by
  induction events generalizing x with
  | nil => rfl
  | cons e events ih =>
    rw [List.cons_append, changes, changes, ih, List.append_assoc]
    rfl

theorem dispatched_append (x : Exchange) (events rest : List Event) :
    x.dispatched (events ++ rest) = x.dispatched events ++ (x.after events).dispatched rest := by
  rw [dispatched, changes_append, List.filterMap_append]
  rfl

theorem dispatched_cons (x : Exchange) (e : Event) (rest : List Event) :
    x.dispatched (e :: rest) = (x.change? e).toList.filterMap Store.Change.action? ++
      (x.step e).dispatched rest := by
  rw [dispatched, changes, List.filterMap_append]
  rfl

theorem change?_cases (x : Exchange) (e : Event) :
    x.change? e = none ∨ x.change? e = some .drain ∨
      ∃ a id, x.change? e = some (.dispatch a) ∧ a.id = some id := by
  cases e with
  | ask _ _ | drop _ => exact .inl rfl
  | drain => exact .inr (.inl rfl)
  | start id =>
    rw [change?]
    cases x.errands.find? (·.id == id) with
    | none => exact .inl rfl
    | some errand => exact .inr (.inr ⟨_, id, rfl, rfl⟩)
  | settle id answer =>
    rw [change?]
    cases x.traffic.flights.find? (·.id == id) with
    | none => exact .inl rfl
    | some flight => exact .inr (.inr ⟨_, id, rfl, rfl⟩)

/-- What every dispatch changes in one way, and no drain changes, follows the log. -/
theorem view_after {α : Type} (view : Store → α) (next : α → Action → α)
    (dispatch : ∀ s a, view (s.dispatch a) = next (view s) a) (drain : ∀ s, view s.drain.2 = view s)
    (x : Exchange) (events : List Event) :
    view (x.after events).store = (x.dispatched events).foldl next (view x.store) := by
  induction events generalizing x with
  | nil => rfl
  | cons e rest ih =>
    have tail : view (x.after (e :: rest)).store =
        ((x.step e).dispatched rest).foldl next (view (x.step e).store) := ih (x.step e)
    rw [tail, dispatched_cons, store_step]
    rcases x.change?_cases e with same | same | ⟨a, id, same, -⟩ <;> rw [same]
    · rfl
    · exact congrArg (List.foldl next · _) (drain x.store)
    · exact congrArg (List.foldl next · _) (dispatch x.store a)

theorem tracker_after (x : Exchange) (events : List Event) :
    (x.after events).store.tracker = (x.dispatched events).foldl Tracker.record x.store.tracker :=
  view_after (·.tracker) Tracker.record Store.tracker_dispatch (fun _ => rfl) x events

end Exchange

end RunBoard
