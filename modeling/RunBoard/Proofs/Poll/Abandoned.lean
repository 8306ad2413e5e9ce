import RunBoard.Proofs.Poll.Tracking

namespace RunBoard

theorem Store.getElem?_tracker_foldl (s : Store) (changes : List Store.Change) (id : RequestId)
    (silent : ∀ change ∈ changes, change.report? id = none) :
    (changes.foldl Store.apply s).tracker[id]? =
      if changes.any (·.drops id) then none else s.tracker[id]? := by
  induction changes generalizing s with
  | nil => rfl
  | cons change rest ih =>
    have applied := s.getElem?_tracker_apply change id
    rw [silent change List.mem_cons_self] at applied
    rw [List.foldl_cons, ih _ fun other member => silent other (List.mem_cons_of_mem _ member), applied,
      List.any_cons]
    cases change.drops id <;> simp

namespace Poll

theorem Stage.inRound_of_mem_ids {stage : Stage} {id : RequestId} (own : id ∈ stage.ids) :
    stage.inRound = true := by
  cases stage with
  | calling | settled => rfl
  | idle | waiting | listing | closing | stopped => contradiction

def Event.leaves (id : RequestId) : Event → Bool
  | .answered asked _ => asked != id
  | .others change => !change.drops id
  | _ => true

namespace Poller

variable {plan : Plan} {p : Poller}

theorem settle_own {left : List Call} {ids : List RequestId} {id : RequestId}
    (here : p.stage = .calling left ids) (own : id ∈ ids) (answer : Answer) :
    (p.settle id answer).traffic = p.traffic.settle id answer ∧
      (p.settle id answer).stage.ids = ids ∧
      ((p.settle id answer).stage = .settled ids →
        ∀ flight ∈ (p.traffic.settle id answer).flights, flight.id ∉ ids) := by
  have held : ids.contains id = true := by simpa using own
  simp only [settle, here, if_pos held]
  refine ⟨trivial, ?_, ?_⟩
  · split <;> rfl
  · split
    · rename_i done
      intro _ flight flies
      have landed := List.all_eq_true.mp (Bool.and_eq_true_iff.mp done).2 flight flies
      simpa using landed
    · intro settled
      contradiction

theorem settle_other {id : RequestId} (other : ∀ left ids, p.stage = .calling left ids → id ∉ ids)
    (answer : Answer) : p.settle id answer = p := by
  unfold settle
  split
  · rename_i left ids here
    rw [if_neg (by simpa using other left ids here)]
  · rfl

structure SettleEffects (p : Poller) (id : RequestId) (after : Poller) : Prop where
  ids : after.stage.ids = p.stage.ids
  flights : ∀ flight ∈ p.traffic.flights, flight.id ≠ id → flight ∈ after.traffic.flights
  others : ∀ other, other ≠ id → after.tracker[other]? = p.tracker[other]?
  own : ∀ left ids, p.stage = .calling left ids → id ∈ ids →
    (∃ flight ∈ p.traffic.flights, flight.id = id) → Answered after.tracker id
  keeps : Answered p.tracker id → Answered after.tracker id
  landed : (∀ ids, p.stage = .settled ids → ∀ flight ∈ p.traffic.flights, flight.id ∉ ids) →
    ∀ ids, after.stage = .settled ids → ∀ flight ∈ after.traffic.flights, flight.id ∉ ids

theorem settle_effects (p : Poller) (id : RequestId) (answer : Answer) :
    p.SettleEffects id (p.settle id answer) := by
  by_cases own : ∃ left ids, p.stage = .calling left ids ∧ id ∈ ids
  · obtain ⟨left, ids, here, member⟩ := own
    obtain ⟨traffic, kept, landed⟩ := settle_own here member answer
    have kept : (p.settle id answer).stage.ids = p.stage.ids := by rw [kept, here]; rfl
    have landed : ∀ round, (p.settle id answer).stage = .settled round →
        ∀ flight ∈ (p.settle id answer).traffic.flights, flight.id ∉ round := by
      intro round settled
      have same : ids = round := by
        rw [settled, here] at kept
        exact kept.symm
      rw [traffic, ← same]
      exact landed (same ▸ settled)
    rcases p.tracker_settle_cases id answer with ⟨nothing, same⟩ | ⟨flights, state, done, tracked⟩
    · have tracker : (p.settle id answer).tracker = p.tracker := by
        rw [Poller.tracker, traffic, same]
        rfl
      exact {
        ids := kept
        flights := fun flight flies _ => by rwa [traffic, same]
        others := fun _ _ => by rw [tracker]
        own := by
          rintro - - - - ⟨flight, flies, own⟩
          exact absurd own (nothing flight flies)
        keeps := fun answered => by rwa [tracker]
        landed := fun _ => landed }
    · have tracked : ∀ other, (p.settle id answer).tracker[other]? =
          if id = other then some state else p.tracker[other]? := by
        rw [Poller.tracker, traffic]
        exact tracked
      have answered : Answered (p.settle id answer).tracker id := by
        intro found held
        rw [tracked, if_pos rfl] at held
        rw [← Option.some.inj held]
        exact done
      exact {
        ids := kept
        flights := fun flight flies other => by
          rw [traffic, flights]
          exact List.mem_filter.mpr ⟨flies, by simpa using other⟩
        others := fun other ne => by rw [tracked, if_neg (Ne.symm ne)]
        own := fun _ _ _ _ _ => answered
        keeps := fun _ => answered
        landed := fun _ => landed }
  · have same := p.settle_other (fun left ids here member => own ⟨left, ids, here, member⟩) answer
    rw [same]
    exact {
      ids := rfl
      flights := fun _ flies _ => flies
      others := fun _ _ => rfl
      own := fun left ids here member => absurd ⟨left, ids, here, member⟩ own
      keeps := fun answered => answered
      landed := fun landed => landed }

theorem continueAt_cases (p : Poller) (plan : Plan) (now : Int) (stage : Stage) :
    p.continueAt plan now stage = p.halt ∨ (p.continueAt plan now stage).stage = stage := by
  unfold continueAt
  split
  · exact .inl rfl
  · exact .inr rfl

theorem halts_of_stopped {e : Event} (running : p.stage ≠ .stopped)
    (stopped : (p.step plan e).1.stage = .stopped) :
    p.step plan e = (p.halt, []) ∧ (e.endsPolling = true ∨ p.stage.ids = []) := by
  cases e with
  | stop | closed => exact ⟨rfl, .inl rfl⟩
  | focus | blur | others => contradiction
  | tick now =>
    simp only [step, tick] at stopped ⊢
    split at stopped
    · rename_i ready
      rw [if_pos ready]
      rcases p.continueAt_cases plan now (.listing (p.active plan now) []) with halted | goesOn
      · exact ⟨by rw [halted], .inr (by rw [ready.1]; rfl)⟩
      · rw [goesOn] at stopped
        contradiction
    · contradiction
  | proceed now =>
    simp only [step, proceed] at stopped ⊢
    split at stopped
    · contradiction
    · contradiction
    · contradiction
    · contradiction
    · rename_i here
      rcases p.continueAt_cases plan now .waiting with halted | goesOn
      · exact ⟨by rw [halted], .inr (by rw [here]; rfl)⟩
      · rw [goesOn] at stopped
        contradiction
    · contradiction
  | answered id answer =>
    simp only [step] at stopped
    by_cases own : ∃ left ids, p.stage = .calling left ids ∧ id ∈ ids
    · obtain ⟨left, ids, here, member⟩ := own
      obtain ⟨-, kept, -⟩ := settle_own here member answer
      rw [stopped] at kept
      rw [← kept] at member
      contradiction
    · rw [settle_other fun left ids here member => own ⟨left, ids, here, member⟩] at stopped
      contradiction

end Poller

namespace Mount

variable {m : Mount} {events : List Event}

/-- The poller has made a call under this id, and since then the call was neither answered nor its
entry dropped. -/
def Awaits (m : Mount) (events : List Event) (id : RequestId) : Prop :=
  ∃ early e late, events = early ++ e :: late ∧
    id ∈ ((m.after early).step m.plan e).2.map (·.id) ∧ ∀ event ∈ late, event.leaves id = true

/-- A stop in the middle of a round came before the answer to a call, and nobody has dropped the
entry of the call since. -/
def CutsOff (m : Mount) (events : List Event) (id : RequestId) : Prop :=
  ∃ before e rest, events = before ++ e :: rest ∧ (m.after before).stage.inRound = true ∧
    e.endsPolling = true ∧ m.Awaits before id ∧
    ∀ change, .others change ∈ rest → change.drops id = false

theorem awaits_snoc (m : Mount) (events : List Event) (e : Event) (id : RequestId) :
    m.Awaits (events ++ [e]) id ↔
      id ∈ ((m.after events).step m.plan e).2.map (·.id) ∨
        m.Awaits events id ∧ e.leaves id = true := by
  constructor
  · rintro ⟨early, first, late, same, made, left⟩
    rcases List.eq_nil_or_concat late with rfl | ⟨late, last, rfl⟩
    · obtain ⟨rfl, ends⟩ := List.append_inj' same rfl
      obtain rfl := List.head_eq_of_cons_eq ends
      exact .inl made
    · rw [List.concat_eq_append] at same left
      rw [← List.cons_append, ← List.append_assoc] at same
      obtain ⟨rfl, ends⟩ := List.append_inj' same rfl
      obtain rfl := List.head_eq_of_cons_eq ends
      refine .inr ⟨⟨early, first, late, rfl, made, fun event member => ?_⟩, ?_⟩
      · exact left event (List.mem_append_left _ member)
      · exact left e (List.mem_append_right _ List.mem_cons_self)
  · rintro (made | ⟨⟨early, first, late, rfl, made, left⟩, leaves⟩)
    · exact ⟨events, e, [], rfl, made, fun _ member => absurd member List.not_mem_nil⟩
    · refine ⟨early, first, late ++ [e], by simp, made, fun event member => ?_⟩
      rcases List.mem_append.mp member with earlier | now
      · exact left event earlier
      · rw [List.mem_singleton.mp now]
        exact leaves

theorem made_snoc (m : Mount) (events : List Event) (e : Event) :
    m.made (events ++ [e]) = m.made events ++ ((m.after events).step m.plan e).2 :=
  m.poller.made_append events [e]

theorem Awaits.made {id : RequestId} (awaits : m.Awaits events id) :
    id ∈ (m.made events).map (·.id) := by
  obtain ⟨early, e, late, rfl, made, -⟩ := awaits
  rw [List.append_cons, Mount.made, Poller.made_append, ← Mount.made, made_snoc, List.map_append,
    List.map_append]
  exact List.mem_append_left _ (List.mem_append_right _ made)

/-- Nobody else dispatches an action under the id of a call of the poller. -/
def Unclaimed (m : Mount) (events : List Event) : Prop :=
  ∀ change, .others change ∈ events → ∀ call ∈ m.made events, change.report? call.id = none

theorem Unclaimed.left {rest : List Event} (unclaimed : m.Unclaimed (events ++ rest)) :
    m.Unclaimed events := by
  intro change member call made
  refine unclaimed change (List.mem_append_left _ member) call ?_
  rw [Mount.made, Poller.made_append]
  exact List.mem_append_left _ made

/-- While a poller runs, the calls that it waits for are calls of its round that are on their way, and
their entries are the pending ones among its entries. -/
structure Outstanding (m : Mount) (events : List Event) : Prop where
  flies : ∀ id, m.Awaits events id →
    id ∈ (m.after events).stage.ids ∧ ∃ flight ∈ (m.after events).traffic.flights, flight.id = id
  pending : ∀ id, m.Awaits events id → (m.after events).tracker[id]? = some (.of id .pending)
  answered : ∀ id ∈ (m.made events).map (·.id), ¬m.Awaits events id →
    Poller.Answered (m.after events).tracker id
  landed : ∀ ids, (m.after events).stage = .settled ids →
    ∀ flight ∈ (m.after events).traffic.flights, flight.id ∉ ids

theorem outstanding_start (m : Mount) : m.Outstanding [] where
  flies := by
    rintro id ⟨early, e, late, same, -⟩
    simp at same
  pending := by
    rintro id ⟨early, e, late, same, -⟩
    simp at same
  answered := nofun
  landed := by
    intro ids settled
    have stage : m.poller.stage = .settled ids := settled
    rw [stage_poller] at stage
    split at stage <;> contradiction

namespace Outstanding

theorem not_awaits (held : m.Outstanding events) (noIds : (m.after events).stage.ids = [])
    (id : RequestId) : ¬m.Awaits events id := by
  intro awaits
  have own := (held.flies id awaits).1
  rw [noIds] at own
  contradiction

theorem not_awaits_of_settled (held : m.Outstanding events) {ids : List RequestId}
    (here : (m.after events).stage = .settled ids) (id : RequestId) : ¬m.Awaits events id := by
  intro awaits
  obtain ⟨own, flight, flies, rfl⟩ := held.flies id awaits
  rw [here] at own
  exact held.landed ids here flight flies own

theorem calling_of_awaits (held : m.Outstanding events) {id : RequestId}
    (awaits : m.Awaits events id) :
    ∃ left ids, (m.after events).stage = .calling left ids ∧ id ∈ ids := by
  obtain ⟨own, -⟩ := held.flies id awaits
  cases here : (m.after events).stage with
  | calling left ids => exact ⟨left, ids, rfl, by rwa [here] at own⟩
  | settled ids => exact absurd awaits (held.not_awaits_of_settled here id)
  | idle | waiting | listing | closing | stopped =>
    rw [here] at own
    contradiction

theorem quiet (held : m.Outstanding events) {e : Event}
    (silent : ((m.after events).step m.plan e).2 = [])
    (flights : (m.after (events ++ [e])).traffic.flights = (m.after events).traffic.flights)
    (stage : (m.after (events ++ [e])).stage = (m.after events).stage ∨
      (∀ id, ¬m.Awaits events id) ∧ ∀ ids, (m.after (events ++ [e])).stage ≠ .settled ids)
    (entries : ∀ id ∈ (m.made events).map (·.id),
      (m.after (events ++ [e])).tracker[id]? = (m.after events).tracker[id]? ∧
          (m.Awaits events id → e.leaves id = true) ∨
        (m.after (events ++ [e])).tracker[id]? = none ∧
          (m.Awaits events id → e.leaves id = false)) :
    m.Outstanding (events ++ [e]) := by
  have awaits : ∀ id, m.Awaits (events ++ [e]) id ↔ m.Awaits events id ∧ e.leaves id = true := by
    intro id
    rw [awaits_snoc, silent]
    exact or_iff_right List.not_mem_nil
  exact {
    flies := by
      intro id waits
      obtain ⟨waited, -⟩ := (awaits id).mp waits
      rw [flights]
      rcases stage with same | ⟨none, -⟩
      · rw [same]
        exact held.flies id waited
      · exact absurd waited (none id)
    pending := by
      intro id waits
      obtain ⟨waited, leaves⟩ := (awaits id).mp waits
      rcases entries id waited.made with ⟨same, -⟩ | ⟨-, dropped⟩
      · rw [same, held.pending id waited]
      · rw [dropped waited] at leaves
        contradiction
    answered := by
      intro id made waits
      rw [made_snoc, silent, List.append_nil] at made
      intro state found
      rcases entries id made with ⟨same, leaves⟩ | ⟨gone, -⟩
      · have before := held.answered id made fun waited =>
          waits ((awaits id).mpr ⟨waited, leaves waited⟩)
        exact before state (same ▸ found)
      · rw [gone] at found
        contradiction
    landed := by
      intro ids settled
      rw [flights]
      rcases stage with same | ⟨-, unsettled⟩
      · exact held.landed ids (same ▸ settled)
      · exact absurd settled (unsettled ids) }

theorem send (held : m.Outstanding events) {now : Int} {call : Call} {left : List Call}
    {ids : List RequestId} (here : (m.after events).stage = .calling (call :: left) ids) :
    m.Outstanding (events ++ [.proceed now]) := by
  have stepped : (m.after events).step m.plan (.proceed now) =
      (m.after events).send m.plan call left ids := by
    rw [Poller.step, Poller.proceed, here]
  have after : m.after (events ++ [.proceed now]) = ((m.after events).send m.plan call left ids).1 := by
    rw [after_append, Poller.after_singleton, stepped]
  have awaits : ∀ id, m.Awaits (events ++ [.proceed now]) id ↔
      id = m.plan.freshId (m.after events).issued ∨ m.Awaits events id := by
    intro id
    rw [awaits_snoc, stepped]
    simp [Poller.send, Event.leaves]
  have flights : ((m.after events).send m.plan call left ids).1.traffic.flights =
      (m.after events).traffic.flights ++
        [{ id := m.plan.freshId (m.after events).issued, operation := call.operation }] := rfl
  have own : ((m.after events).send m.plan call left ids).1.stage.ids =
      (m.after events).stage.ids ++ [m.plan.freshId (m.after events).issued] := by
    rw [here]
    rfl
  exact {
    flies := by
      intro id waits
      rw [after, flights, own]
      rcases (awaits id).mp waits with rfl | waited
      · exact ⟨List.mem_append_right _ List.mem_cons_self, _,
          List.mem_append_right _ List.mem_cons_self, rfl⟩
      · obtain ⟨member, flight, flies, rfl⟩ := held.flies id waited
        exact ⟨List.mem_append_left _ member, flight, List.mem_append_left _ flies, rfl⟩
    pending := by
      intro id waits
      rw [after, Poller.getElem?_tracker_send]
      split
      · rfl
      · rename_i other
        exact held.pending id (((awaits id).mp waits).resolve_left (Ne.symm other))
    answered := by
      intro id made waits
      rw [awaits, not_or] at waits
      rw [made_snoc, stepped, List.map_append, List.mem_append] at made
      have old := made.resolve_right fun new => waits.1 (by simpa [Poller.send] using new)
      rw [after, Poller.Answered, Poller.getElem?_tracker_send, if_neg (Ne.symm waits.1)]
      exact held.answered id old waits.2
    landed := by
      intro ids settled
      rw [after] at settled
      contradiction }

theorem answer (held : m.Outstanding events) (id : RequestId) (answer : Answer) :
    m.Outstanding (events ++ [.answered id answer]) := by
  have silent : ((m.after events).step m.plan (.answered id answer)).2 = [] := rfl
  have after : m.after (events ++ [.answered id answer]) = (m.after events).settle id answer := by
    rw [after_append]
    rfl
  have awaits : ∀ other, m.Awaits (events ++ [.answered id answer]) other ↔
      m.Awaits events other ∧ other ≠ id := by
    intro other
    rw [awaits_snoc, silent]
    simp only [List.map_nil, List.not_mem_nil, false_or, Event.leaves, bne_iff_ne]
    rw [ne_comm]
  have made : m.made (events ++ [.answered id answer]) = m.made events := by
    rw [made_snoc, silent, List.append_nil]
  have settled := (m.after events).settle_effects id answer
  exact {
    flies := by
      intro other waits
      obtain ⟨waited, ne⟩ := (awaits other).mp waits
      obtain ⟨own, flight, flies, rfl⟩ := held.flies other waited
      rw [after]
      exact ⟨settled.ids ▸ own, flight, settled.flights flight flies ne, rfl⟩
    pending := by
      intro other waits
      obtain ⟨waited, ne⟩ := (awaits other).mp waits
      rw [after, settled.others other ne]
      exact held.pending other waited
    answered := by
      intro other sent waits
      rw [made] at sent
      rw [after]
      by_cases same : other = id
      · subst same
        by_cases waited : m.Awaits events other
        · obtain ⟨left, ids, here, own⟩ := held.calling_of_awaits waited
          exact settled.own left ids here own (held.flies other waited).2
        · exact settled.keeps (held.answered other sent waited)
      · rw [Poller.Answered, settled.others other same]
        exact held.answered other sent fun waited => waits ((awaits other).mpr ⟨waited, same⟩)
    landed := by
      rw [after]
      exact settled.landed held.landed }

theorem others (held : m.Outstanding events) {change : Store.Change}
    (unclaimed : ∀ id ∈ (m.made events).map (·.id), change.report? id = none) :
    m.Outstanding (events ++ [.others change]) := by
  have after : m.after (events ++ [.others change]) =
      { m.after events with traffic := (m.after events).traffic.change change } := by
    rw [after_append]
    rfl
  have quiet := held.quiet (e := .others change) rfl
  rw [after] at quiet
  refine quiet rfl (.inl rfl) fun id made => ?_
  have applied := (m.after events).traffic.store.getElem?_tracker_apply change id
  rw [unclaimed id made] at applied
  cases drops : change.drops id with
  | false =>
    rw [drops] at applied
    exact .inl ⟨applied, fun _ => by rw [Event.leaves, drops]; rfl⟩
  | true =>
    rw [drops] at applied
    exact .inr ⟨applied, fun _ => by rw [Event.leaves, drops]; rfl⟩

theorem next (held : m.Outstanding events) {e : Event}
    (running : (m.after (events ++ [e])).stage ≠ .stopped)
    (unclaimed : ∀ change, e = .others change → ∀ id ∈ (m.made events).map (·.id),
      change.report? id = none) :
    m.Outstanding (events ++ [e]) := by
  -- Answers and the changes of others are about some id; the other events leave every call alone.
  by_cases answers : ∃ id answer, e = .answered id answer
  · obtain ⟨id, answer, rfl⟩ := answers
    exact held.answer id answer
  by_cases shared : ∃ change, e = .others change
  · obtain ⟨change, rfl⟩ := shared
    exact held.others (unclaimed change rfl)
  have leaves (id : RequestId) : e.leaves id = true := by
    cases e with
    | answered id answer => exact absurd ⟨id, answer, rfl⟩ answers
    | others change => exact absurd ⟨change, rfl⟩ shared
    | focus | blur | stop | closed | tick | proceed => rfl
  have effect := m.effect_after events e
  have quiet := held.quiet (e := e)
  generalize m.after (events ++ [e]) = after at effect running quiet
  generalize ((m.after events).step m.plan e).2 = sent at effect quiet
  cases effect with
  | halts => contradiction
  | takes id answer | settles id answer => exact absurd ⟨id, answer, rfl⟩ answers
  | others change => exact absurd ⟨change, rfl⟩ shared
  | stays _ focused => exact quiet rfl rfl (.inl rfl) fun id _ => .inl ⟨rfl, fun _ => leaves id⟩
  | moves _ stage _ noIds unasked =>
    refine quiet rfl rfl (.inr ⟨held.not_awaits noIds, (Stage.unasked unasked).2.2⟩) fun id _ => ?_
    exact .inl ⟨rfl, fun _ => leaves id⟩
  | sends now call left ids here => exact held.send here
  | forgets now ids here =>
    have none := held.not_awaits_of_settled here
    refine quiet rfl rfl (.inr ⟨none, nofun⟩) fun id _ => ?_
    rw [Poller.getElem?_tracker_forget]
    split
    · exact .inr ⟨rfl, fun waits => absurd waits (none id)⟩
    · exact .inl ⟨rfl, fun waits => absurd waits (none id)⟩

end Outstanding

theorem running_left {rest : List Event} (running : (m.after (events ++ rest)).stage ≠ .stopped) :
    (m.after events).stage ≠ .stopped := by
  intro stopped
  rw [after_append] at running
  exact running (Poller.after_stopped stopped m.plan rest).1

theorem outstanding_after (unclaimed : m.Unclaimed events)
    (running : (m.after events).stage ≠ .stopped) : m.Outstanding events := by
  induction events using List.reverseRecOn with
  | nil => exact m.outstanding_start
  | append_singleton events e ih =>
    refine (ih unclaimed.left (running_left running)).next running ?_
    rintro change rfl id made
    obtain ⟨call, own, rfl⟩ := List.mem_map.mp made
    refine unclaimed change (List.mem_append_right _ List.mem_cons_self) call ?_
    rw [made_snoc]
    exact List.mem_append_left _ own

theorem exists_end (m : Mount) (events : List Event) (stopped : (m.after events).stage = .stopped) :
    m.active = [] ∨ ∃ before e rest, events = before ++ e :: rest ∧
      (m.after before).stage ≠ .stopped ∧ (m.after (before ++ [e])).stage = .stopped := by
  induction events using List.reverseRecOn with
  | nil =>
    have stage : m.poller.stage = .stopped := stopped
    rw [stage_poller] at stage
    split at stage
    · exact .inl ‹_›
    · contradiction
  | append_singleton events e ih =>
    by_cases before : (m.after events).stage = .stopped
    · rcases ih before with none | ⟨early, last, rest, rfl, running, ends⟩
      · exact .inl none
      · exact .inr ⟨early, last, rest ++ [e], by simp, running, ends⟩
    · exact .inr ⟨events, e, [], rfl, before, stopped⟩

theorem mem_changes {rest : List Event} {change : Store.Change} :
    change ∈ rest.filterMap Event.change? ↔ .others change ∈ rest := by
  rw [List.mem_filterMap]
  constructor
  · rintro ⟨e, held, shared⟩
    cases e with
    | others other =>
      cases shared
      exact held
    | focus | blur | stop | closed | tick | proceed | answered => contradiction
  · exact fun member => ⟨_, member, rfl⟩

theorem made_and_tracker_after_end {before rest : List Event} {e : Event}
    (unclaimed : m.Unclaimed (before ++ e :: rest)) (running : (m.after before).stage ≠ .stopped)
    (stopped : (m.after (before ++ [e])).stage = .stopped) :
    m.made (before ++ e :: rest) = m.made before ∧
      ∀ id ∈ (m.made before).map (·.id), (m.after (before ++ e :: rest)).tracker[id]? =
        if (rest.filterMap Event.change?).any (·.drops id) then none
        else (m.after before).tracker[id]? := by
  have last : m.after (before ++ [e]) = ((m.after before).step m.plan e).1 := by
    rw [after_append, Poller.after_singleton]
  rw [last] at stopped
  obtain ⟨halts, -⟩ := Poller.halts_of_stopped running stopped
  obtain ⟨-, silent, store⟩ := Poller.after_stopped stopped m.plan rest
  have split : before ++ e :: rest = before ++ [e] ++ rest := List.append_cons before e rest
  have made : m.made (before ++ e :: rest) = m.made before := by
    have sent : m.made (before ++ [e] ++ rest) =
        m.made (before ++ [e]) ++ (m.after (before ++ [e])).made m.plan rest :=
      m.poller.made_append _ _
    rw [split, sent, made_snoc, last, silent, halts, List.append_nil, List.append_nil]
  refine ⟨made, fun id own => ?_⟩
  have tracker : (m.after (before ++ e :: rest)).tracker =
      ((rest.filterMap Event.change?).foldl Store.apply (m.after before).traffic.store).tracker := by
    rw [Poller.tracker, split, after_append, last, store, halts]
    rfl
  rw [tracker]
  refine Store.getElem?_tracker_foldl _ _ id fun change member => ?_
  obtain ⟨call, own, rfl⟩ := List.mem_map.mp own
  have shared := List.mem_cons_of_mem e (mem_changes.mp member)
  refine unclaimed change (List.mem_append_right _ shared) call ?_
  rwa [made]

theorem CutsOff.pending (unclaimed : m.Unclaimed events) {id : RequestId}
    (cut : m.CutsOff events id) : (m.after events).tracker[id]? = some (.of id .pending) := by
  obtain ⟨before, e, rest, rfl, inside, told, waits, undropped⟩ := cut
  have running : (m.after before).stage ≠ .stopped := by
    intro stopped
    rw [stopped] at inside
    contradiction
  have ends : (m.after (before ++ [e])).stage = .stopped := by
    rw [after_append]
    exact Poller.status_eq_stopped.mp ((m.after before).after_endsPolling m.plan told []).1
  have held := m.outstanding_after unclaimed.left running
  obtain ⟨-, tracker⟩ := made_and_tracker_after_end unclaimed running ends
  rw [tracker id waits.made, if_neg, held.pending id waits]
  rw [List.any_eq_true]
  rintro ⟨change, member, drops⟩
  rw [undropped change (mem_changes.mp member)] at drops
  contradiction

/-- Once a poller has ended, the entry of a call that it made is active if and only if a stop cut the
call off and nobody has dropped the entry since. -/
theorem active_iff_cutsOff (m : Mount) (events : List Event)
    (stopped : (m.after events).status = .stopped) (unclaimed : m.Unclaimed events) :
    ∀ call ∈ m.made events,
      (∃ state, (m.after events).tracker[call.id]? = some state ∧ state.active = true) ↔
        m.CutsOff events call.id := by
  intro call made
  constructor
  · rintro ⟨state, found, active⟩
    rcases m.exists_end events (Poller.status_eq_stopped.mp stopped) with
      none | ⟨before, e, rest, rfl, running, ends⟩
    · rw [(m.never_calls_iff.mpr none).2 events] at made
      contradiction
    have held := m.outstanding_after unclaimed.left running
    obtain ⟨same, tracker⟩ := made_and_tracker_after_end unclaimed running ends
    have own : call.id ∈ (m.made before).map (·.id) := List.mem_map_of_mem (same ▸ made)
    rw [tracker call.id own] at found
    split at found
    · contradiction
    rename_i undropped
    have waits : m.Awaits before call.id := by
      by_contra waited
      rw [held.answered call.id own waited state found] at active
      contradiction
    have inside := (held.flies call.id waits).1
    have told : e.endsPolling = true := by
      rw [after_append, Poller.after_singleton] at ends
      refine (Poller.halts_of_stopped running ends).2.resolve_right fun noIds => ?_
      exact held.not_awaits noIds call.id waits
    refine ⟨before, e, rest, rfl, Stage.inRound_of_mem_ids inside, told, waits, ?_⟩
    intro change member
    cases drops : change.drops call.id with
    | false => rfl
    | true =>
      exact absurd (List.any_eq_true.mpr ⟨change, mem_changes.mpr member, drops⟩) undropped
  · exact fun cut => ⟨.of call.id .pending, cut.pending unclaimed, rfl⟩

theorem active_iff_cutsOff_run :
    let run : Run := { info := .new "live" "0" .running, data := .none }
    let m : Mount := {
      plan := {
        runs := ["live"], metricKeys := ["loss"], threshold := 1000
        freshId := fun n => String.ofList (List.replicate n 'r') }
      store := Store.empty.dispatch (.untracked (.getRun "live") (.fulfilled run))
      focused := true
      now := 0 }
    let events : List Event := [.tick 10, .proceed 10, .proceed 10, .proceed 10, .proceed 10,
      .answered "" fun _ => .error default, .stop]
    m.made events =
        [{ id := "", query := .getMetricHistory "live" "loss" },
          { id := "r", query := .getRun "live" }] ∧
      ¬m.CutsOff events "" ∧ m.CutsOff events "r" := by
  intro run m events
  have stopped : (m.after events).status = .stopped := by decide +kernel
  have unclaimed : m.Unclaimed events := by
    intro change member
    simp [events] at member
  have made : m.made events = [{ id := "", query := .getMetricHistory "live" "loss" },
      { id := "r", query := .getRun "live" }] := by decide +kernel
  have entries := m.active_iff_cutsOff events stopped unclaimed
  rw [made] at entries
  have first : ((m.after events).tracker[""]?).any (·.active) = false := by decide +kernel
  have second : ((m.after events).tracker["r"]?).any (·.active) = true := by decide +kernel
  refine ⟨made, ?_, ?_⟩
  · rw [← entries _ List.mem_cons_self]
    rintro ⟨state, found, active⟩
    rw [found] at first
    rw [Option.any_some, active] at first
    contradiction
  · refine (entries _ (List.mem_cons_of_mem _ List.mem_cons_self)).mp ?_
    exact (Option.any_eq_true _ _).mp second

theorem stop_in_round_leaves_pending :
    let run : Run := { info := .new "live" "0" .running, data := .none }
    let m : Mount := {
      plan := {
        runs := ["live"], metricKeys := ["loss"], threshold := 1000
        freshId := fun n => String.ofList (List.replicate n 'r') }
      store := Store.empty.dispatch (.untracked (.getRun "live") (.fulfilled run))
      focused := true
      now := 0 }
    let events : List Event :=
      [.tick 10, .proceed 10, .proceed 10, .proceed 10, .proceed 10, .stop]
    (m.after events).status = .stopped ∧ (m.made events).map (·.id) = ["", "r"] ∧
      ∀ id ∈ ["", "r"], ((m.after events).tracker[id]?).any (·.active) = true := by
  decide +kernel

end Mount

end Poll

end RunBoard
