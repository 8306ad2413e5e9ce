import RunBoard.Proofs.Poll.Effects
import RunBoard.Proofs.Poll.Mount

namespace RunBoard.Poll

/-- The requests of the last round that was settled, and those made since. -/
structure Ledger where
  settled : List RequestId
  current : List RequestId
  deriving DecidableEq, Inhabited

namespace Ledger

def empty : Ledger := { settled := [], current := [] }

/-- Books the calls of an event. A round counts as settled when the poller goes on to close it. -/
def next (l : Ledger) (before after : Stage) (sent : List Sent) : Ledger :=
  let made := l.current ++ sent.map (·.id)
  if after = .closing ∧ before ≠ .closing then { settled := made, current := [] }
  else { l with current := made }

theorem next_closing (l : Ledger) {before : Stage} (opened : before ≠ .closing) :
    l.next before .closing [] = { settled := l.current, current := [] } := by
  rw [next, if_pos ⟨rfl, opened⟩, List.map_nil, List.append_nil]

theorem next_of_ne (l : Ledger) {before after : Stage} (goesOn : after ≠ .closing)
    (sent : List Sent) :
    l.next before after sent = { l with current := l.current ++ sent.map (·.id) } :=
  if_neg fun closes => goesOn closes.1

theorem next_quiet (l : Ledger) {before after : Stage} (goesOn : after ≠ .closing) :
    l.next before after [] = l := by
  rw [l.next_of_ne goesOn, List.map_nil, List.append_nil]

theorem mem_next (l : Ledger) {before after : Stage} {sent : List Sent} {id : RequestId}
    (booked : id ∈ (l.next before after sent).settled ∨ id ∈ (l.next before after sent).current) :
    (id ∈ l.settled ∨ id ∈ l.current) ∨ id ∈ sent.map (·.id) := by
  unfold next at booked
  split at booked
  · rcases booked with made | none
    · rw [List.mem_append] at made
      exact made.imp_left .inr
    · contradiction
  · rw [List.mem_append, ← or_assoc] at booked
    exact booked

theorem next_self (l : Ledger) (stage : Stage) : l.next stage stage [] = l := by
  rw [next, if_neg fun closes => closes.2 closes.1, List.map_nil, List.append_nil]

end Ledger

namespace Poller

variable {plan : Plan} {p : Poller} {l : Ledger}

def ledger (p : Poller) (plan : Plan) (l : Ledger) : List Event → Ledger
  | [] => l
  | e :: rest =>
    (p.step plan e).1.ledger plan (l.next p.stage (p.step plan e).1.stage (p.step plan e).2) rest

theorem ledger_append (p : Poller) (l : Ledger) (first rest : List Event) :
    p.ledger plan l (first ++ rest) =
      (p.after plan first).ledger plan (p.ledger plan l first) rest := by
  induction first generalizing p l with
  | nil => rfl
  | cons e first ih =>
    have stepped : p.after plan (e :: first) = (p.step plan e).1.after plan first :=
      p.after_append [e] first
    rw [List.cons_append, ledger, ledger, ih, stepped]

structure Follows (p : Poller) (l : Ledger) : Prop where
  previous : p.previous = l.settled
  current : p.stage ≠ .stopped → p.stage.ids = l.current

theorem Follows.next (held : Follows p l) {e : Event} {after : Poller} {sent : List Sent}
    (effect : Effect plan p e after sent) : Follows after (l.next p.stage after.stage sent) := by
  cases effect with
  | stays | takes | others =>
    rw [l.next_self]
    exact ⟨held.previous, held.current⟩
  | halts e =>
    rw [l.next_quiet (by nofun)]
    exact ⟨held.previous, fun running => absurd rfl running⟩
  | moves e stage running noIds unasked =>
    obtain ⟨noIdsThen, goesOn, -⟩ := Stage.unasked unasked
    have none : l.current = [] := (held.current running).symm.trans noIds
    rw [l.next_quiet goesOn]
    exact ⟨held.previous, fun _ => noIdsThen.trans none.symm⟩
  | sends now call left ids here =>
    have current : p.stage.ids = l.current := held.current (by rw [here]; nofun)
    rw [here] at current
    rw [l.next_of_ne (by nofun)]
    refine ⟨held.previous, fun _ => ?_⟩
    rw [← current]
    rfl
  | settles id answer ids here own landed =>
    have current : p.stage.ids = l.current := held.current (by rw [here]; nofun)
    rw [here] at current
    rw [l.next_quiet (by nofun)]
    exact ⟨held.previous, fun _ => current⟩
  | forgets now ids here =>
    have current : p.stage.ids = l.current := held.current (by rw [here]; nofun)
    have opened : p.stage ≠ .closing := by rw [here]; nofun
    rw [here] at current
    have booked : l.next p.stage (p.forget ids).stage [] = { settled := l.current, current := [] } :=
      l.next_closing opened
    rw [booked]
    exact ⟨current, fun _ => rfl⟩

end Poller

namespace Round

variable {plan : Plan} {p : Poller} {now : Int} {since : List Event}

theorem ledger (round : Round plan p now since) {l : Ledger} (follows : p.Follows l) :
    p.ledger plan l (.tick now :: since) =
      if (p.after plan (.tick now :: since)).stage = .closing then
        { settled := (p.made plan (.tick now :: since)).map (·.id), current := [] }
      else { l with current := (p.made plan (.tick now :: since)).map (·.id) } := by
  induction since using List.reverseRecOn with
  | nil =>
    have none : l.current = [] := by
      rw [← follows.current (by rw [round.waiting]; nofun), round.waiting]
      rfl
    have listing : (p.after plan [.tick now]).stage = .listing (p.active plan now) [] :=
      Poller.stage_tick round.waiting round.focused round.active
    have booked : p.ledger plan l [.tick now] = l.next p.stage (p.after plan [.tick now]).stage [] :=
      rfl
    rw [booked, listing, l.next_quiet (by nofun), if_neg (by nofun), Poller.made_singleton]
    exact congrArg (Ledger.mk l.settled) none
  | append_singleton since e ih =>
    have before := ih round.dropLast
    have inside := round.dropLast.inRound
    have still := round.inRound
    rw [Poller.after_tick_append] at still
    rw [← List.cons_append, Poller.ledger_append, before, List.cons_append,
      Poller.after_tick_append, Poller.made_tick_append]
    generalize p.after plan (.tick now :: since) = q at inside still ⊢
    have move := q.step_move plan e
    simp only [Poller.ledger]
    generalize (q.step plan e).1.stage = stage at move still ⊢
    generalize (q.step plan e).2 = sent at move ⊢
    cases move with
    | stays => rw [Ledger.next_self, List.append_nil]
    | told | dry | ends => contradiction
    | begins _ here =>
      rw [here] at inside
      contradiction
    | lists _ _ _ _ here | listed _ _ here | settles _ _ _ here =>
      rw [here, Ledger.next_quiet _ (by nofun), if_neg (by nofun), if_neg (by nofun), List.append_nil]
    | sends _ _ _ _ here =>
      rw [here, Ledger.next_of_ne _ (by nofun), if_neg (by nofun), if_neg (by nofun), List.map_append]
    | forgets _ _ here =>
      rw [here, if_neg (by nofun), if_pos rfl, Ledger.next_closing _ (by nofun), List.append_nil]

end Round

namespace Mount

def ledger (m : Mount) (events : List Event) : Ledger := m.poller.ledger m.plan .empty events

theorem ledger_append (m : Mount) (first rest : List Event) :
    m.ledger (first ++ rest) = (m.after first).ledger m.plan (m.ledger first) rest :=
  m.poller.ledger_append .empty first rest

theorem ledger_snoc (m : Mount) (events : List Event) (e : Event) :
    m.ledger (events ++ [e]) = (m.ledger events).next (m.after events).stage
      (m.after (events ++ [e])).stage ((m.after events).step m.plan e).2 := by
  rw [ledger_append, after_append]
  rfl

theorem effect_after (m : Mount) (events : List Event) (e : Event) :
    (m.after events).Effect m.plan e (m.after (events ++ [e])) ((m.after events).step m.plan e).2 := by
  rw [after_append]
  exact (m.after events).step_effect m.plan e

theorem poller_eq (m : Mount) :
    m.poller = { Poller.new m.store m.focused with
      stage := if m.active = [] then .stopped else .waiting } := by
  have active : (Poller.new m.store m.focused).active m.plan m.now = m.active := rfl
  rw [poller, Poller.start, Poller.continueAt, active]
  simp only [List.isEmpty_iff]
  split <;> rfl

theorem follows_start (m : Mount) : m.poller.Follows .empty where
  previous := by rw [poller_eq]; rfl
  current _ := by
    rw [stage_poller]
    split <;> rfl

theorem follows_after (m : Mount) (events : List Event) :
    (m.after events).Follows (m.ledger events) := by
  induction events using List.reverseRecOn with
  | nil => exact m.follows_start
  | append_singleton events e ih =>
    rw [ledger_snoc]
    exact ih.next (m.effect_after events e)

theorem mem_made_of_ledger (m : Mount) (events : List Event) (id : RequestId)
    (booked : id ∈ (m.ledger events).settled ∨ id ∈ (m.ledger events).current) :
    id ∈ (m.made events).map (·.id) := by
  induction events using List.reverseRecOn with
  | nil => simp [ledger, Poller.ledger, Ledger.empty] at booked
  | append_singleton events e ih =>
    rw [ledger_snoc] at booked
    have made : m.made (events ++ [e]) = m.made events ++ ((m.after events).step m.plan e).2 :=
      m.poller.made_append events [e]
    rw [made, List.map_append, List.mem_append]
    have parts := (m.ledger events).mem_next booked
    rcases parts with old | new
    · exact .inl (ih old)
    · exact .inr new

theorem settled_eq_nil (m : Mount) (events : List Event)
    (unsettled : ∀ part, part <+: events → (m.after part).stage ≠ .closing) :
    (m.ledger events).settled = [] := by
  induction events using List.reverseRecOn with
  | nil => rfl
  | append_singleton events e ih =>
    rw [ledger_snoc, Ledger.next_of_ne _ (unsettled _ (List.prefix_refl _))]
    exact ih fun part earlier => unsettled part (earlier.trans (List.prefix_append events [e]))

end Mount

end RunBoard.Poll
