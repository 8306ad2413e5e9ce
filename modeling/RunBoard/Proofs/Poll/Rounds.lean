import RunBoard.Proofs.Poll.Moves

namespace RunBoard.Poll

namespace Stage

def inRound : Stage → Bool
  | listing _ _ | calling _ _ | settled _ | closing => true
  | _ => false

def hasSettled : Stage → Bool
  | settled _ | closing => true
  | _ => false

end Stage

/-- The events since a tick belong to the round that `p` began at it. -/
structure Round (plan : Plan) (p : Poller) (now : Int) (since : List Event) : Prop where
  waiting : p.stage = .waiting
  focused : p.focused = true
  active : p.active plan now ≠ []
  underWay : ∀ part, part <+: since → (p.after plan (.tick now :: part)).stage.inRound = true

structure Lookup where
  run : String
  keys : List String

namespace Lookup

def queries (found : Lookup) : List Query :=
  found.keys.map (.getMetricHistory found.run) ++ [.getRun found.run]

/-- The metrics are those of the plan. If it names none they are those logged for the run, in order
and each once. -/
def Holds (plan : Plan) (s : Entities) (found : Lookup) : Prop :=
  if plan.metricKeys = [] then
    found.keys.Pairwise (· < ·) ∧
      ∀ key, key ∈ found.keys ↔ (Table.lookIn s.latest found.run key).isSome = true
  else found.keys = plan.metricKeys

end Lookup

namespace Poller

variable {plan : Plan}

theorem holds_keysOf (p : Poller) (run : String) :
    Lookup.Holds plan p.traffic.store.entities ⟨run, p.keysOf plan run⟩ := by
  unfold Lookup.Holds keysOf
  split
  · rename_i all
    rw [if_pos (List.isEmpty_iff.mpr all)]
    exact ⟨Table.keys_lt _, Table.mem_keys_part p.traffic.store.entities.latest run⟩
  · rename_i some
    rw [if_neg (by simpa using some)]

theorem queries_callsOf (run : String) (keys : List String) :
    (callsOf run keys).map (·.query) = Lookup.queries ⟨run, keys⟩ := by
  simp only [callsOf, Lookup.queries, List.map_append, List.map_map, List.map_cons, List.map_nil]
  rfl

end Poller

/-- How far a round over `runs` is: what it has looked up, and the queries that it has sent. -/
def Stage.Covers (runs : List String) (found : List Lookup) (sent : List Query) : Stage → Prop
  | .listing left calls =>
    found.map (·.run) ++ left = runs ∧ calls.map (·.query) = found.flatMap (·.queries) ∧ sent = []
  | .calling left _ =>
    found.map (·.run) = runs ∧ sent ++ left.map (·.query) = found.flatMap (·.queries)
  | .settled _ | .closing => found.map (·.run) = runs ∧ sent = found.flatMap (·.queries)
  | _ => False

theorem Stage.Covers.isPrefix {runs : List String} {found : List Lookup} {sent : List Query}
    {stage : Stage} (covers : stage.Covers runs found sent) :
    found.map (·.run) <+: runs ∧ sent <+: found.flatMap (·.queries) ∧
      (stage.hasSettled = true → found.map (·.run) = runs ∧ sent = found.flatMap (·.queries)) := by
  cases stage with
  | listing left calls =>
    obtain ⟨rfl, _, rfl⟩ := covers
    exact ⟨List.prefix_append _ left, List.nil_prefix, nofun⟩
  | calling left ids =>
    obtain ⟨rfl, asked⟩ := covers
    rw [← asked]
    exact ⟨List.prefix_refl _, List.prefix_append sent _, nofun⟩
  | settled | closing =>
    obtain ⟨rfl, rfl⟩ := covers
    exact ⟨List.prefix_refl _, List.prefix_refl _, fun _ => ⟨rfl, rfl⟩⟩
  | idle | waiting | stopped => contradiction

namespace Poller

variable {plan : Plan}

theorem Move.covers {p : Poller} {e : Event} {next : Stage} {sent : List Sent}
    (move : Move plan p e next sent) {runs : List String} {found : List Lookup}
    {queries : List Query} (covers : p.stage.Covers runs found queries)
    (still : next.inRound = true) :
    ∃ more : List Lookup, (∀ one ∈ more, one.Holds plan p.traffic.store.entities) ∧
      next.Covers runs (found ++ more) (queries ++ sent.map (·.query)) := by
  cases move with
  | stays => exact ⟨[], by simp, by simpa using covers⟩
  | told | dry => contradiction
  | begins _ here => simp [here, Stage.Covers] at covers
  | lists _ run left calls here =>
    rw [here] at covers
    obtain ⟨split, asked, none⟩ := covers
    refine ⟨[⟨run, p.keysOf plan run⟩], ?_, ?_, ?_, ?_⟩
    · intro one member
      obtain rfl := List.mem_singleton.mp member
      exact p.holds_keysOf run
    · simpa using split
    · rw [List.map_append, asked, queries_callsOf, List.flatMap_append, List.flatMap_singleton]
    · simpa using none
  | listed _ calls here =>
    rw [here] at covers
    obtain ⟨split, asked, none⟩ := covers
    refine ⟨[], by simp, ?_, ?_⟩
    · simpa using split
    · simpa [none] using asked
  | sends _ _ _ _ here | settles _ _ _ here | forgets _ _ here =>
    rw [here] at covers
    obtain ⟨all, asked⟩ := covers
    refine ⟨[], by simp, ?_, ?_⟩
    · simpa using all
    · simpa using asked
  | ends => contradiction

theorem stage_tick {p : Poller} {now : Int} (waiting : p.stage = .waiting)
    (focused : p.focused = true) (active : p.active plan now ≠ []) :
    (p.tick plan now).stage = .listing (p.active plan now) [] := by
  unfold tick continueAt
  rw [if_pos ⟨waiting, focused⟩, if_neg (by simpa using active)]

theorem after_tick_append (p : Poller) (now : Int) (since : List Event) (e : Event) :
    p.after plan (.tick now :: (since ++ [e])) =
      ((p.after plan (.tick now :: since)).step plan e).1 :=
  p.after_append (.tick now :: since) [e]

theorem made_tick_append (p : Poller) (now : Int) (since : List Event) (e : Event) :
    p.made plan (.tick now :: (since ++ [e])) =
      p.made plan (.tick now :: since) ++ ((p.after plan (.tick now :: since)).step plan e).2 :=
  p.made_append (.tick now :: since) [e]

end Poller

namespace Round

variable {plan : Plan} {p : Poller} {now : Int} {since : List Event} {e : Event}

theorem first (waiting : p.stage = .waiting) (focused : p.focused = true)
    (active : p.active plan now ≠ []) : Round plan p now [] where
  waiting := waiting
  focused := focused
  active := active
  underWay := by
    intro part held
    obtain rfl := List.prefix_nil.mp held
    show (p.tick plan now).stage.inRound = true
    rw [Poller.stage_tick waiting focused active]
    rfl

theorem dropLast (round : Round plan p now (since ++ [e])) : Round plan p now since :=
  { round with
    underWay := fun part held => round.underWay part (held.trans (List.prefix_append since [e])) }

theorem snoc (round : Round plan p now since)
    (still : ((p.after plan (.tick now :: since)).step plan e).1.stage.inRound = true) :
    Round plan p now (since ++ [e]) :=
  { round with
    underWay := by
      intro part held
      rcases List.prefix_concat_iff.mp held with rfl | earlier
      · rw [Poller.after_tick_append]
        exact still
      · exact round.underWay part earlier }

theorem inRound (round : Round plan p now since) :
    (p.after plan (.tick now :: since)).stage.inRound = true :=
  round.underWay since (List.prefix_refl since)

theorem covers (round : Round plan p now since) :
    ∃ found : List Lookup,
      (∀ one ∈ found, ∃ part, part <+: since ∧
        one.Holds plan (p.after plan (.tick now :: part)).traffic.store.entities) ∧
      (p.after plan (.tick now :: since)).stage.Covers (p.active plan now) found
        ((p.made plan (.tick now :: since)).map (·.query)) := by
  induction since using List.reverseRecOn with
  | nil =>
    refine ⟨[], by simp, ?_⟩
    have listing : (p.after plan [.tick now]).stage = .listing (p.active plan now) [] :=
      Poller.stage_tick round.waiting round.focused round.active
    rw [listing]
    exact ⟨rfl, rfl, rfl⟩
  | append_singleton since e ih =>
    obtain ⟨found, held, covers⟩ := ih round.dropLast
    have still := round.inRound
    rw [Poller.after_tick_append] at still
    obtain ⟨more, holds, next⟩ :=
      ((p.after plan (.tick now :: since)).step_move plan e).covers covers still
    refine ⟨found ++ more, ?_, ?_⟩
    · intro one member
      rcases List.mem_append.mp member with old | new
      · obtain ⟨part, earlier, holds⟩ := held one old
        exact ⟨part, earlier.trans (List.prefix_append since [e]), holds⟩
      · exact ⟨since, List.prefix_append since [e], holds one new⟩
    · rw [Poller.after_tick_append, Poller.made_tick_append, List.map_append]
      exact next

end Round

namespace Poller

variable {plan : Plan}

theorem Move.inRound {p : Poller} {e : Event} {next : Stage} {sent : List Sent}
    (move : Move plan p e next sent) (inside : next.inRound = true) :
    p.stage.inRound = true ∨ ∃ now, e = .tick now ∧ Round plan p now [] := by
  cases move with
  | stays => exact .inl inside
  | told | dry | ends => contradiction
  | begins now waiting focused active => exact .inr ⟨now, rfl, Round.first waiting focused active⟩
  | lists _ _ _ _ here | listed _ _ here | sends _ _ _ _ here | settles _ _ _ here
  | forgets _ _ here => exact .inl (by rw [here]; rfl)

theorem exists_round {p : Poller} (outside : p.stage.inRound = false) (events : List Event)
    (inside : (p.after plan events).stage.inRound = true) :
    ∃ early now since, events = early ++ .tick now :: since ∧
      Round plan (p.after plan early) now since := by
  induction events using List.reverseRecOn with
  | nil =>
    have same : p.stage.inRound = true := inside
    rw [outside] at same
    contradiction
  | append_singleton events e ih =>
    rw [after_append, after_singleton] at inside
    rcases ((p.after plan events).step_move plan e).inRound inside with before | ⟨now, rfl, round⟩
    · obtain ⟨early, now, since, rfl, round⟩ := ih before
      refine ⟨early, now, since ++ [e], by simp, round.snoc ?_⟩
      rwa [after_append] at inside
    · exact ⟨events, now, [], rfl, round⟩

theorem Move.sent {p : Poller} {e : Event} {next : Stage} {sent : List Sent}
    (move : Move plan p e next sent) {call : Sent} (made : call ∈ sent) :
    p.stage.inRound = true ∧ next.inRound = true := by
  cases move with
  | sends _ _ _ _ here => exact ⟨by rw [here]; rfl, rfl⟩
  | stays | told | dry | begins | lists | listed | settles | forgets | ends =>
    exact absurd made List.not_mem_nil

theorem Move.status {p : Poller} {e : Event} {next : Stage} {sent : List Sent}
    (move : Move plan p e next sent) (started : p.status ≠ .idle) : next.status ≠ .idle := by
  cases move with
  | stays => exact started
  | told | dry | begins | lists | listed | sends | settles | forgets | ends => nofun

theorem status_eq_stopped {p : Poller} : p.status = .stopped ↔ p.stage = .stopped := by
  unfold status
  cases p.stage <;> simp [Stage.status]

theorem stage_start (p : Poller) (now : Int) :
    (p.start plan now).stage = if p.active plan now = [] then .stopped else .waiting := by
  unfold start continueAt
  simp only [List.isEmpty_iff]
  split <;> rfl

theorem started_after {p : Poller} (started : p.status ≠ .idle) (events : List Event) :
    (p.after plan events).status ≠ .idle := by
  induction events using List.reverseRecOn with
  | nil => exact started
  | append_singleton events e ih =>
    rw [after_append, after_singleton]
    exact ((p.after plan events).step_move plan e).status ih

theorem stage_endsPolling (p : Poller) {e : Event} (ends : e.endsPolling = true) :
    p.step plan e = (p.halt, []) := by
  cases e with
  | stop | closed => rfl
  | focus | blur | tick | proceed | answered | others => contradiction

theorem after_endsPolling (p : Poller) (plan : Plan) {e : Event} (ends : e.endsPolling = true)
    (rest : List Event) :
    (p.after plan (e :: rest)).status = .stopped ∧ p.made plan (e :: rest) = [] ∧
      (p.after plan (e :: rest)).traffic.store =
        (rest.filterMap Event.change?).foldl Store.apply p.traffic.store := by
  have halted : p.step plan e = (p.halt, []) := p.stage_endsPolling ends
  have first : p.after plan [e] = p.halt := congrArg Prod.fst halted
  have silent : p.made plan [e] = [] := congrArg Prod.snd halted
  obtain ⟨stage, none, store⟩ := after_stopped (p := p.halt) rfl plan rest
  rw [← List.singleton_append, after_append, made_append, first, silent]
  exact ⟨status_eq_stopped.mpr stage, none, store⟩

end Poller

end RunBoard.Poll
