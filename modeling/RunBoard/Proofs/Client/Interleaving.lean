import RunBoard.Client.Session
import RunBoard.Proofs.Client.Course

namespace RunBoard

namespace Exchange

/-- Events that gave the command of a call, and neither reported the call nor gave it up. -/
def Ready (x : Exchange) (events : List Event) (id : RequestId) (call : Call) : Prop :=
  ∃ before command wait, events = before ++ .ask id command :: wait ∧
    command.call? (x.after before).store.entities.nextPageToken = some call ∧
    .start id ∉ wait ∧ .drop id ∉ wait

theorem asked_once {before rest : List Event} {id : RequestId} {command : Command}
    (distinct : ((before ++ .ask id command :: rest).filterMap Event.asked?).Nodup) :
    (∀ e ∈ before, e.asked? ≠ some id) ∧ ∀ e ∈ rest, e.asked? ≠ some id := by
  simp only [List.filterMap_append, List.filterMap_cons, Event.asked?, List.nodup_append,
    List.nodup_cons, List.mem_filterMap, List.mem_cons] at distinct
  obtain ⟨-, ⟨afterwards, -⟩, before_⟩ := distinct
  constructor
  · intro e member asks
    exact before_ id ⟨e, member, asks⟩ id (.inl rfl) rfl
  · intro e member asks
    exact afterwards ⟨e, member, asks⟩

theorem Ready.waits {x : Exchange} {early rest : List Event} {id : RequestId} {call : Call}
    (ready : x.Ready early id call) (idle : x.Idle id)
    (distinct : ((early ++ rest).filterMap Event.asked?).Nodup) :
    (x.after early).Waits id call ∧ x.reports early id = [] ∧ ∀ e ∈ rest, e.asked? ≠ some id := by
  obtain ⟨before, command, wait, rfl, known, unstarted, kept⟩ := ready
  rw [List.append_assoc, List.cons_append] at distinct
  obtain ⟨unasked, unaskedLater⟩ := asked_once distinct
  obtain ⟨idleThen, unreported⟩ := idle.after unasked
  obtain ⟨waits, silent⟩ := idleThen.ask known
  have others : ∀ e ∈ wait, e.asked? ≠ some id ∧ e ≠ .start id ∧ e ≠ .drop id := by
    intro e member
    refine ⟨unaskedLater e (List.mem_append_left rest member), ?_, ?_⟩
    · rintro rfl
      exact unstarted member
    · rintro rfl
      exact kept member
  obtain ⟨waitsStill, silentStill⟩ := waits.after others
  refine ⟨?_, ?_, fun e member => unaskedLater e (List.mem_append_right wait member)⟩
  · rw [after_append]
    exact waitsStill
  · rw [reports_append, unreported, reports_cons, silent, silentStill]
    rfl

theorem Ready.reports {x : Exchange} {early since : List Event} {id : RequestId} {call : Call}
    (ready : x.Ready early id call) (idle : x.Idle id)
    (distinct : ((early ++ .start id :: since).filterMap Event.asked?).Nodup) :
    x.reports early id = [] ∧
      x.reports (early ++ .start id :: since) id =
        ⟨some id, call.operation, .pending⟩ :: answered id call.operation (outcome id since) := by
  obtain ⟨waits, unreported, unasked⟩ := ready.waits idle distinct
  obtain ⟨flies, pending⟩ := waits.start
  have answers := flies.reports_after (List.forall_mem_cons.mp unasked).2
  refine ⟨unreported, ?_⟩
  rw [reports_append, unreported, reports_cons, pending, answers]
  rfl

theorem Ready.dispatched_settle {x : Exchange} {early meantime rest : List Event} {id : RequestId}
    {call : Call} {answer : Answer} (ready : x.Ready early id call) (idle : x.Idle id)
    (distinct :
      ((early ++ .start id :: meantime ++ .settle id answer :: rest).filterMap Event.asked?).Nodup)
    (unended : ∀ e ∈ meantime, e.end? id = none) :
    x.dispatched (early ++ .start id :: meantime ++ .settle id answer :: rest) =
      x.dispatched (early ++ .start id :: meantime) ++
        ⟨some id, call.operation, .ofAnswer (answer call.operation)⟩ ::
          (x.after (early ++ .start id :: meantime ++ [.settle id answer])).dispatched rest := by
  rw [List.append_assoc] at distinct
  obtain ⟨waits, -, unasked⟩ := ready.waits idle distinct
  have others : ∀ e ∈ meantime, e.asked? ≠ some id ∧ e.end? id = none := by
    intro e member
    exact ⟨unasked e (List.mem_append_left _ (List.mem_cons_of_mem _ member)), unended e member⟩
  have flies : (x.after (early ++ .start id :: meantime)).Flies id call.operation := by
    rw [after_append]
    exact (waits.start.1.after others).1
  have settled := (x.after (early ++ .start id :: meantime)).dispatched_append [.settle id answer] rest
  rw [flies.dispatched_settle, ← after_append] at settled
  rw [dispatched_append]
  exact congrArg _ settled

theorem getElem?_tracker_after (x : Exchange) (events : List Event) (id : RequestId) :
    (x.after events).store.tracker[id]? =
      ((x.reports events id).map (.of id ·.progress)).getLast?.or x.store.tracker[id]? := by
  rw [tracker_after]
  exact Tracker.getElem?_foldl_record x.store.tracker (x.dispatched events) id

end Exchange

end RunBoard
