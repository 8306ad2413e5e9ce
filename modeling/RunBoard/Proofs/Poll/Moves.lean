import Mathlib.Data.List.Induction
import RunBoard.Poll.Poller

namespace RunBoard.Poll

namespace Event

def focus? : Event → Option Bool
  | focus => some true
  | blur => some false
  | _ => none

def change? : Event → Option Store.Change
  | others change => some change
  | _ => none

def endsPolling : Event → Bool
  | stop | closed => true
  | _ => false

end Event

namespace Poller

variable {plan : Plan}

/-- Where an event leads from the stage of `p`, and the calls that are made on the way. -/
inductive Move (plan : Plan) (p : Poller) : Event → Stage → List Sent → Prop where
  | stays (e : Event) : Move plan p e p.stage []
  | told (e : Event) (ends : e.endsPolling = true) : Move plan p e .stopped []
  | dry (e : Event) (now : Int) (between : p.stage = .waiting ∨ p.stage = .closing)
      (noneActive : p.active plan now = []) : Move plan p e .stopped []
  | begins (now : Int) (waiting : p.stage = .waiting) (focused : p.focused = true)
      (someActive : p.active plan now ≠ []) :
      Move plan p (.tick now) (.listing (p.active plan now) []) []
  | lists (now : Int) (run : String) (left : List String) (calls : List Call)
      (here : p.stage = .listing (run :: left) calls) :
      Move plan p (.proceed now) (.listing left (calls ++ callsOf run (p.keysOf plan run))) []
  | listed (now : Int) (calls : List Call) (here : p.stage = .listing [] calls) :
      Move plan p (.proceed now) (.calling calls []) []
  | sends (now : Int) (call : Call) (left : List Call) (ids : List RequestId)
      (here : p.stage = .calling (call :: left) ids) :
      Move plan p (.proceed now) (.calling left (ids ++ [plan.freshId p.issued]))
        [{ id := plan.freshId p.issued, query := call.query }]
  | settles (id : RequestId) (answer : Answer) (ids : List RequestId)
      (here : p.stage = .calling [] ids) : Move plan p (.answered id answer) (.settled ids) []
  | forgets (now : Int) (ids : List RequestId) (here : p.stage = .settled ids) :
      Move plan p (.proceed now) .closing []
  | ends (now : Int) (here : p.stage = .closing) (someActive : p.active plan now ≠ []) :
      Move plan p (.proceed now) .waiting []

theorem move_tick (p : Poller) (now : Int) :
    Move plan p (.tick now) (p.tick plan now).stage [] := by
  unfold tick continueAt
  split
  · rename_i ready
    split
    · rename_i noneActive
      exact .dry _ now (.inl ready.1) (List.isEmpty_iff.mp noneActive)
    · rename_i someActive
      exact .begins now ready.1 ready.2 (by simpa using someActive)
  · exact .stays _

theorem move_proceed (p : Poller) (now : Int) :
    Move plan p (.proceed now) (p.proceed plan now).1.stage (p.proceed plan now).2 := by
  unfold proceed
  split
  · rename_i run left calls here
    exact .lists now run left calls here
  · rename_i calls here
    exact .listed now calls here
  · rename_i call left ids here
    exact .sends now call left ids here
  · rename_i ids here
    exact .forgets now ids here
  · rename_i here
    unfold continueAt
    split
    · rename_i noneActive
      exact .dry _ now (.inr here) (List.isEmpty_iff.mp noneActive)
    · rename_i someActive
      exact .ends now here (by simpa using someActive)
  · exact .stays _

theorem move_settle (p : Poller) (id : RequestId) (answer : Answer) :
    Move plan p (.answered id answer) (p.settle id answer).stage [] := by
  unfold settle
  split
  · rename_i left ids here
    split
    · cases left with
      | nil =>
        dsimp only
        split
        · exact .settles id answer ids here
        · exact here ▸ .stays _
      | cons call left => exact here ▸ .stays _
    · exact .stays _
  · exact .stays _

theorem step_move (p : Poller) (plan : Plan) (e : Event) :
    Move plan p e (p.step plan e).1.stage (p.step plan e).2 := by
  cases e with
  | focus | blur | others change => exact .stays _
  | stop | closed => exact .told _ rfl
  | tick now => exact p.move_tick now
  | proceed now => exact p.move_proceed now
  | answered id answer => exact p.move_settle id answer

theorem focused_step (p : Poller) (e : Event) :
    (p.step plan e).1.focused = e.focus?.getD p.focused := by
  cases e with
  | focus | blur | stop | closed | others change => rfl
  | tick now =>
    simp only [step, tick, continueAt, halt]
    split
    · split <;> rfl
    · rfl
  | proceed now =>
    simp only [step, proceed, send, forget, continueAt, halt]
    split <;> try rfl
    split <;> rfl
  | answered id answer =>
    simp only [step, settle]
    split
    · split <;> rfl
    · rfl

theorem run_from (p : Poller) (earlier : List Sent) (events : List Event) :
    events.foldl (fun state e => ((state.1.step plan e).1, state.2 ++ (state.1.step plan e).2))
        (p, earlier) =
      ((p.run plan events).1, earlier ++ (p.run plan events).2) := by
  induction events using List.reverseRecOn with
  | nil => simp [run]
  | append_singleton events e ih =>
    simp only [run, List.foldl_append, List.foldl_cons, List.foldl_nil] at ih ⊢
    rw [ih, List.append_assoc]

def after (p : Poller) (plan : Plan) (events : List Event) : Poller := (p.run plan events).1

def made (p : Poller) (plan : Plan) (events : List Event) : List Sent := (p.run plan events).2

theorem run_append (p : Poller) (first rest : List Event) :
    p.run plan (first ++ rest) =
      ((p.after plan first).after plan rest,
        p.made plan first ++ (p.after plan first).made plan rest) := by
  rw [run, List.foldl_append]
  exact run_from (p.after plan first) (p.made plan first) rest

theorem after_append (p : Poller) (first rest : List Event) :
    p.after plan (first ++ rest) = (p.after plan first).after plan rest := by
  rw [after, run_append]

theorem made_append (p : Poller) (first rest : List Event) :
    p.made plan (first ++ rest) = p.made plan first ++ (p.after plan first).made plan rest := by
  rw [made, run_append]

theorem after_singleton (p : Poller) (e : Event) : p.after plan [e] = (p.step plan e).1 := rfl

theorem made_singleton (p : Poller) (e : Event) : p.made plan [e] = (p.step plan e).2 := rfl

theorem focused_after (p : Poller) (events : List Event) :
    (p.after plan events).focused = (events.filterMap Event.focus?).getLast?.getD p.focused := by
  induction events using List.reverseRecOn with
  | nil => rfl
  | append_singleton events e ih =>
    rw [after_append, after_singleton, focused_step, ih, List.filterMap_append,
      List.getLast?_append]
    cases flag : e.focus? with
    | none => rw [List.filterMap_cons_none flag]; rfl
    | some held => rw [List.filterMap_cons_some flag]; rfl

theorem step_stopped {p : Poller} (stopped : p.stage = .stopped) (plan : Plan) (e : Event) :
    (p.step plan e).1.stage = .stopped ∧ (p.step plan e).2 = [] := by
  have move := p.step_move plan e
  generalize (p.step plan e).1.stage = stage at move ⊢
  generalize (p.step plan e).2 = sent at move ⊢
  cases move with
  | stays => exact ⟨stopped, rfl⟩
  | told | dry => exact ⟨rfl, rfl⟩
  | begins _ here | lists _ _ _ _ here | listed _ _ here | sends _ _ _ _ here
  | settles _ _ _ here | forgets _ _ here | ends _ here =>
    rw [stopped] at here
    contradiction

theorem store_step_stopped {p : Poller} (stopped : p.stage = .stopped) (e : Event) :
    (p.step plan e).1.traffic.store = e.change?.toList.foldl Store.apply p.traffic.store := by
  cases e with
  | focus | blur | stop | closed | others change => rfl
  | tick now => rw [step, tick, if_neg (by simp [stopped])]; rfl
  | proceed now => rw [step, proceed, stopped]; rfl
  | answered id answer => rw [step, settle, stopped]; rfl

theorem after_stopped {p : Poller} (stopped : p.stage = .stopped) (plan : Plan)
    (events : List Event) :
    (p.after plan events).stage = .stopped ∧ p.made plan events = [] ∧
      (p.after plan events).traffic.store =
        (events.filterMap Event.change?).foldl Store.apply p.traffic.store := by
  induction events using List.reverseRecOn with
  | nil => exact ⟨stopped, rfl, rfl⟩
  | append_singleton events e ih =>
    obtain ⟨still, silent, store⟩ := ih
    obtain ⟨stage, sent⟩ := step_stopped still plan e
    refine ⟨by rw [after_append]; exact stage, ?_, ?_⟩
    · rw [made_append, silent, made_singleton, sent, List.append_nil]
    · rw [after_append, after_singleton, store_step_stopped still e, store, List.filterMap_append,
        List.foldl_append]
      cases change : e.change? with
      | none => rw [List.filterMap_cons_none change]; rfl
      | some what => rw [List.filterMap_cons_some change]; rfl

end Poller

end RunBoard.Poll
