import Mathlib.Data.List.DropRight
import RunBoard.Proofs.Entities.Log
import RunBoard.Proofs.Store.Notices

namespace RunBoard

namespace Tracker

theorem firstError_eq_some_iff (t : Tracker) (ids : List RequestId) (e : ApiError) :
    t.firstError ids = some e ↔
      ∃ early id late, ids = early ++ id :: late ∧ t[id]?.bind (·.error) = some e ∧
        ∀ other ∈ early, t[other]?.bind (·.error) = none := by
  rw [firstError, List.findSome?_eq_some_iff]

theorem view_eq_notFound_iff (t : Tracker) (ids : List RequestId) (message : String) :
    t.view ids = .notFound message ↔
      ∃ e, t.firstError ids = some e ∧ e.code = .resourceDoesNotExist ∧ e.message = message := by
  rw [view]
  cases t.firstError ids with
  | none => cases t.allComplete ids <;> simp
  | some e => by_cases code : e.code = .resourceDoesNotExist <;> simp [ApiError.isNotFound, code]

theorem view_eq_failed_iff (t : Tracker) (ids : List RequestId) (message : String) :
    t.view ids = .failed message ↔
      ∃ e, t.firstError ids = some e ∧ e.code ≠ .resourceDoesNotExist ∧ e.message = message := by
  rw [view]
  cases t.firstError ids with
  | none => cases t.allComplete ids <;> simp
  | some e => by_cases code : e.code = .resourceDoesNotExist <;> simp [ApiError.isNotFound, code]

def Settled (t : Tracker) (id : RequestId) : Prop :=
  ∃ state, t[id]? = some state ∧ state.active = false ∧ state.error = none

theorem allComplete_iff {t : Tracker} {ids : List RequestId} (unrejected : t.firstError ids = none) :
    t.allComplete ids = true ↔ ∀ id ∈ ids, t.Settled id := by
  rw [allComplete, List.all_eq_true]
  refine forall₂_congr fun id member => ?_
  have clean := List.findSome?_eq_none_iff.mp unrejected id member
  unfold Settled
  cases held : t[id]? with
  | none => simp
  | some state =>
    rw [held] at clean
    have clean : state.error = none := clean
    simp [clean]

theorem firstError_of_settled {t : Tracker} {ids : List RequestId}
    (settled : ∀ id ∈ ids, t.Settled id) : t.firstError ids = none := by
  rw [firstError, List.findSome?_eq_none_iff]
  intro id member
  obtain ⟨state, held, -, clean⟩ := settled id member
  rw [held]
  exact clean

theorem view_eq_ready_iff (t : Tracker) (ids : List RequestId) :
    t.view ids = .ready ↔ ∀ id ∈ ids, t.Settled id := by
  constructor
  · intro ready
    rw [view] at ready
    split at ready
    · split at ready <;> cases ready
    · rename_i unrejected
      split at ready
      · exact (allComplete_iff unrejected).mp ‹_›
      · cases ready
  · intro settled
    have unrejected := firstError_of_settled settled
    rw [view, unrejected, (allComplete_iff unrejected).mpr settled]
    rfl

theorem view_eq_loading_iff (t : Tracker) (ids : List RequestId) :
    t.view ids = .loading ↔
      (∀ e, t.firstError ids ≠ some e) ∧ ∃ id ∈ ids, ¬t.Settled id := by
  rw [← Option.eq_none_iff_forall_ne_some, view]
  cases unrejected : t.firstError ids with
  | some e => by_cases code : e.isNotFound = true <;> simp [code]
  | none =>
    have complete := allComplete_iff unrejected
    by_cases done : t.allComplete ids = true
    · simpa [done] using complete.mp done
    · have open' := mt complete.mpr done
      push Not at open'
      simpa [done] using open'

/-- Each request stands under its own id, and it is active, has data or has an error. -/
def Sound (t : Tracker) : Prop :=
  ∀ (id : RequestId) (state : RequestState), t[id]? = some state →
    state.id = id ∧ [state.active, state.data.isSome, state.error.isSome].count true = 1

theorem sound_empty : Sound ∅ := by
  intro id state held
  simp at held

theorem Sound.record {t : Tracker} (sound : t.Sound) (a : Action) : (t.record a).Sound := by
  intro id state held
  rw [getElem?_record] at held
  split at held
  · obtain rfl := Option.some.inj held
    cases a.progress <;> exact ⟨rfl, rfl⟩
  · exact sound id state held

theorem Sound.forget {t : Tracker} (sound : t.Sound) (ids : List RequestId) :
    (t.forget ids).Sound := by
  intro id state held
  rw [getElem?_forget] at held
  split at held
  · contradiction
  · exact sound id state held

end Tracker

namespace Store

namespace Change

def report? (id : RequestId) : Change → Option Action
  | dispatch a => if a.id = some id then some a else none
  | _ => none

def drops (id : RequestId) : Change → Bool
  | forget ids => ids.contains id
  | reset => true
  | _ => false

end Change

/-- The last action of a request since it was last dropped. -/
def lastReport (id : RequestId) (changes : List Change) : Option Action :=
  ((changes.rtakeWhile (!·.drops id)).filterMap (·.report? id)).getLast?

theorem lastReport_snoc (id : RequestId) (changes : List Change) (c : Change) :
    lastReport id (changes ++ [c]) =
      if c.drops id then none else (c.report? id).or (lastReport id changes) := by
  cases drops : c.drops id with
  | true => simp [lastReport, drops]
  | false =>
    rw [lastReport, List.rtakeWhile_concat_pos _ _ _ (by rw [drops]; rfl), getLast?_filterMap_snoc]
    rfl

theorem getElem?_tracker_apply (s : Store) (c : Change) (id : RequestId) :
    (s.apply c).tracker[id]? =
      if c.drops id then none else ((c.report? id).map (.of id ·.progress)).or s.tracker[id]? := by
  cases c with
  | dispatch a =>
    have recorded := s.tracker.getElem?_record a id
    rw [← tracker_dispatch] at recorded
    by_cases own : a.id = some id <;> simpa [apply, Change.drops, Change.report?, own] using recorded
  | forget ids => simp [apply, forget, Change.drops, Change.report?, Tracker.getElem?_forget]
  | drain => rfl
  | reset => exact Std.ExtTreeMap.getElem?_empty

theorem getElem?_tracker_after (changes : List Change) (id : RequestId) :
    (empty.after changes).tracker[id]? = (lastReport id changes).map (.of id ·.progress) := by
  induction changes using List.reverseRecOn with
  | nil => exact Std.ExtTreeMap.getElem?_empty
  | append_singleton changes c ih =>
    have applied := (empty.after changes).getElem?_tracker_apply c id
    rw [ih] at applied
    rw [after_append, lastReport_snoc]
    refine applied.trans ?_
    split
    · rfl
    · cases c.report? id <;> rfl

def Rejected (changes : List Change) (id : RequestId) (e : ApiError) : Prop :=
  ∃ a, lastReport id changes = some a ∧ a.phase = .rejected e

def Fulfilled (changes : List Change) (id : RequestId) : Prop :=
  ∃ a payload, lastReport id changes = some a ∧ a.phase = .fulfilled payload

/-- The error of the first id, in the order of the ids, whose last action was a rejection. -/
def FirstRejected (changes : List Change) (ids : List RequestId) (e : ApiError) : Prop :=
  ∃ early id late, ids = early ++ id :: late ∧ Rejected changes id e ∧
    ∀ other ∈ early, ∀ e', ¬Rejected changes other e'

theorem error_eq_some_iff (changes : List Change) (id : RequestId) (e : ApiError) :
    (empty.after changes).tracker[id]?.bind (·.error) = some e ↔ Rejected changes id e := by
  rw [getElem?_tracker_after, Rejected]
  rcases lastReport id changes with _ | ⟨id, op, _ | payload | other⟩ <;>
    simp [Action.progress, Phase.map, RequestState.of]

theorem settled_iff (changes : List Change) (id : RequestId) :
    (empty.after changes).tracker.Settled id ↔ Fulfilled changes id := by
  rw [Tracker.Settled, getElem?_tracker_after, Fulfilled]
  rcases lastReport id changes with _ | ⟨id, op, _ | payload | other⟩ <;>
    simp [Action.progress, Phase.map, RequestState.of]

theorem firstError_eq_some_iff (changes : List Change) (ids : List RequestId) (e : ApiError) :
    (empty.after changes).tracker.firstError ids = some e ↔ FirstRejected changes ids e := by
  simp only [Tracker.firstError_eq_some_iff, Option.eq_none_iff_forall_ne_some, ne_eq,
    error_eq_some_iff, FirstRejected]

theorem sound_after (changes : List Change) : (empty.after changes).tracker.Sound := by
  induction changes using List.reverseRecOn with
  | nil => exact Tracker.sound_empty
  | append_singleton changes c ih =>
    rw [after_append]
    cases c with
    | dispatch a =>
      have recorded := ih.record a
      rwa [← tracker_dispatch] at recorded
    | forget ids => exact ih.forget ids
    | drain => exact ih
    | reset => exact Tracker.sound_empty

theorem getElem?_tracker_after_eq (changes : List Change) (id : RequestId) :
    (empty.after changes).tracker[id]? =
      (lastReport id changes).map fun a =>
        match a.phase with
        | .pending => { id, active := true, data := none, error := none }
        | .fulfilled payload =>
          { id, active := false, data := some (a.operation.snapshot payload), error := none }
        | .rejected e => { id, active := false, data := none, error := some e } := by
  rw [getElem?_tracker_after]
  rcases lastReport id changes with _ | ⟨own, op, _ | payload | e⟩ <;> rfl

/-- After any changes of a new store, a request stands where its last action since it was dropped
left it, under its own id and in one of three ways. What a view shows follows from these actions: the
first error in the order of the ids, else whether all of them were fulfilled. -/
theorem requests_stand_at_last_report (changes : List Change) :
    (∀ id, (empty.after changes).tracker[id]? =
      (lastReport id changes).map fun a =>
        match a.phase with
        | .pending => { id, active := true, data := none, error := none }
        | .fulfilled payload =>
          { id, active := false, data := some (a.operation.snapshot payload), error := none }
        | .rejected e => { id, active := false, data := none, error := some e }) ∧
    (∀ a : Action, a.id = none →
      (empty.after (changes ++ [.dispatch a])).tracker = (empty.after changes).tracker) ∧
    (∀ (id : RequestId) (state : RequestState), (empty.after changes).tracker[id]? = some state →
      state.id = id ∧ [state.active, state.data.isSome, state.error.isSome].count true = 1) ∧
    ∀ ids,
      (∀ message, (empty.after changes).tracker.view ids = .notFound message ↔
        ∃ e, FirstRejected changes ids e ∧ e.code = .resourceDoesNotExist ∧ e.message = message) ∧
      (∀ message, (empty.after changes).tracker.view ids = .failed message ↔
        ∃ e, FirstRejected changes ids e ∧ e.code ≠ .resourceDoesNotExist ∧ e.message = message) ∧
      ((empty.after changes).tracker.view ids = .ready ↔ ∀ id ∈ ids, Fulfilled changes id) ∧
      ((empty.after changes).tracker.view ids = .loading ↔
        (∀ e, ¬FirstRejected changes ids e) ∧ ∃ id ∈ ids, ¬Fulfilled changes id) := by
  refine ⟨getElem?_tracker_after_eq changes, ?_, sound_after changes, fun ids => ⟨?_, ?_, ?_, ?_⟩⟩
  · intro a untracked
    rw [after_append]
    refine ((empty.after changes).tracker_dispatch a).trans ?_
    rw [Tracker.record, untracked]
  · intro message
    simp only [Tracker.view_eq_notFound_iff, firstError_eq_some_iff]
  · intro message
    simp only [Tracker.view_eq_failed_iff, firstError_eq_some_iff]
  · simp only [Tracker.view_eq_ready_iff, settled_iff]
  · simp only [Tracker.view_eq_loading_iff, ne_eq, firstError_eq_some_iff, settled_iff]

theorem dropped_request_stands_at_answer :
    let changes : List Change := [
      .dispatch ⟨some "list", .listExperiments, .pending⟩,
      .forget ["list", "run"],
      .dispatch ⟨some "run", .getRun "lost", .rejected (.notFound "no such run")⟩,
      .dispatch ⟨some "list", .listExperiments, .fulfilled []⟩]
    let untracked : Action := .untracked .listExperiments .pending
    let state : RequestState :=
      { id := "list", active := false, data := some (.arr []), error := none }
    (empty.after changes).tracker["list"]? = some state ∧
      untracked.id = none ∧
      (empty.after (changes ++ [.dispatch untracked])).tracker = (empty.after changes).tracker ∧
      [state.active, state.data.isSome, state.error.isSome].count true = 1 ∧
      (empty.after changes).tracker.view ["unknown", "list", "run"] = .notFound "no such run" := by
  intro changes untracked state
  obtain ⟨stands, untouched, entries, views⟩ := requests_stand_at_last_report changes
  have held : (empty.after changes).tracker["list"]? = some state := stands "list"
  refine ⟨held, rfl, untouched untracked rfl, (entries "list" state held).2, ?_⟩
  refine ((views ["unknown", "list", "run"]).1 "no such run").mpr ?_
  refine ⟨.notFound "no such run", ⟨["unknown", "list"], "run", [], rfl, ⟨_, rfl, rfl⟩, ?_⟩, rfl, rfl⟩
  intro other member e' ⟨a, last, rejected⟩
  rcases List.mem_pair.mp member with rfl | rfl
  · cases last
  · cases last
    cases rejected

end Store

end RunBoard
