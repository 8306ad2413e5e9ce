import RunBoard.Proofs.Poll.Ledger

namespace RunBoard.Poll

namespace Poller

variable {plan : Plan} {p : Poller} {l : Ledger}

def Answered (t : Tracker) (id : RequestId) : Prop :=
  ∀ state, t[id]? = some state → state.active = false

structure Accounted (plan : Plan) (p : Poller) (l : Ledger) : Prop extends Follows p l where
  issued : ∀ id, id ∈ l.settled ∨ id ∈ l.current → ∃ n, n < p.issued ∧ plan.freshId n = id
  apart : ∀ id ∈ l.settled, id ∉ l.current
  tracked (n : Nat) : (p.tracker[plan.freshId n]?).isSome = true ↔
    plan.freshId n ∈ l.settled ∨ plan.freshId n ∈ l.current
  answered : ∀ id ∈ l.settled, Answered p.tracker id
  awaited : p.stage ≠ .stopped → ∀ id ∈ l.current,
    (∃ flight ∈ p.traffic.flights, flight.id = id) ∨ Answered p.tracker id
  landed : ∀ ids, p.stage = .settled ids → ∀ flight ∈ p.traffic.flights, flight.id ∉ ids

theorem Accounted.frame (held : Accounted plan p l) {after : Poller} (follows : Follows after l)
    (same : ∀ n, after.tracker[plan.freshId n]? = p.tracker[plan.freshId n]?)
    (issued : after.issued = p.issued)
    (awaited : after.stage ≠ .stopped →
      p.stage ≠ .stopped ∧ after.traffic.flights = p.traffic.flights)
    (landed : ∀ ids, after.stage = .settled ids → ∀ flight ∈ after.traffic.flights, flight.id ∉ ids) :
    Accounted plan after l where
  toFollows := follows
  issued := by rw [issued]; exact held.issued
  apart := held.apart
  tracked n := by rw [same]; exact held.tracked n
  answered := by
    intro id member
    obtain ⟨n, -, rfl⟩ := held.issued id (.inl member)
    rw [Answered, same]
    exact held.answered _ member
  awaited := by
    intro running id member
    obtain ⟨n, -, rfl⟩ := held.issued id (.inr member)
    obtain ⟨runningThen, flights⟩ := awaited running
    rw [Answered, same, flights]
    exact held.awaited runningThen _ member
  landed := landed

theorem Accounted.send (held : Accounted plan p l) (distinct : Function.Injective plan.freshId)
    {call : Call} {left : List Call} {ids : List RequestId}
    (here : p.stage = .calling (call :: left) ids)
    (follows : Follows (p.send plan call left ids).1
      { l with current := l.current ++ [plan.freshId p.issued] }) :
    Accounted plan (p.send plan call left ids).1
      { l with current := l.current ++ [plan.freshId p.issued] } := by
  have running : p.stage ≠ .stopped := by rw [here]; nofun
  -- The id is none of those booked before, so that only its own entry moves.
  have unused : ∀ id, id ∈ l.settled ∨ id ∈ l.current → plan.freshId p.issued ≠ id := by
    intro id member same
    obtain ⟨n, earlier, rfl⟩ := held.issued id member
    exact Nat.lt_irrefl _ (distinct same ▸ earlier)
  have kept : ∀ id, plan.freshId p.issued ≠ id →
      (p.send plan call left ids).1.tracker[id]? = p.tracker[id]? := by
    intro id other
    rw [getElem?_tracker_send, if_neg other]
  have flights : (p.send plan call left ids).1.traffic.flights =
      p.traffic.flights ++ [{ id := plan.freshId p.issued, operation := call.operation }] := rfl
  exact {
    toFollows := follows
    issued := by
      intro id member
      rw [List.mem_append, List.mem_singleton, ← or_assoc] at member
      rcases member with old | rfl
      · obtain ⟨n, earlier, rfl⟩ := held.issued id old
        exact ⟨n, Nat.lt_succ_of_lt earlier, rfl⟩
      · exact ⟨p.issued, Nat.lt_succ_self _, rfl⟩
    apart := by
      intro id member again
      rw [List.mem_append, List.mem_singleton] at again
      rcases again with old | new
      · exact held.apart id member old
      · exact unused id (.inl member) new.symm
    tracked := by
      intro n
      rw [List.mem_append, List.mem_singleton, ← or_assoc, ← held.tracked n]
      by_cases own : plan.freshId p.issued = plan.freshId n
      · rw [getElem?_tracker_send, if_pos own]
        exact iff_of_true rfl (.inr own.symm)
      · rw [kept _ own]
        exact (or_iff_left (Ne.symm own)).symm
    answered := by
      intro id member
      rw [Answered, kept id (unused id (.inl member))]
      exact held.answered id member
    awaited := by
      intro _ id member
      rw [List.mem_append, List.mem_singleton] at member
      rw [flights]
      rcases member with old | rfl
      · rw [Answered, kept id (unused id (.inr old))]
        rcases held.awaited running id old with ⟨flight, flies, own⟩ | answered
        · exact .inl ⟨flight, List.mem_append_left _ flies, own⟩
        · exact .inr answered
      · exact .inl ⟨_, List.mem_append_right _ List.mem_cons_self, rfl⟩
    landed := nofun }

theorem Accounted.settle (held : Accounted plan p l) {id : RequestId} {answer : Answer}
    {after : Poller} (own : id ∈ l.current) (running : p.stage ≠ .stopped)
    (follows : Follows after l) (traffic : after.traffic = p.traffic.settle id answer)
    (issued : after.issued = p.issued)
    (landed : ∀ ids, after.stage = .settled ids → ∀ flight ∈ after.traffic.flights, flight.id ∉ ids) :
    Accounted plan after l := by
  rcases p.tracker_settle_cases id answer with ⟨-, same⟩ | ⟨flights, state, done, tracked⟩
  · rw [same] at traffic
    refine held.frame follows (fun n => ?_) issued (fun _ => ⟨running, ?_⟩) landed
    · rw [tracker, tracker, traffic]
    · rw [traffic]
  · have kept : ∀ other, id ≠ other → after.tracker[other]? = p.tracker[other]? := by
      intro other ne
      rw [tracker, traffic, tracked, if_neg ne]
    have answeredNow : after.tracker[id]? = some state := by
      rw [tracker, traffic, tracked, if_pos rfl]
    exact {
      toFollows := follows
      issued := by
        rw [issued]
        exact held.issued
      apart := held.apart
      tracked := by
        intro n
        by_cases same : id = plan.freshId n
        · rw [← same, answeredNow]
          exact iff_of_true rfl (.inr own)
        · rw [kept _ same]
          exact held.tracked n
      answered := by
        intro other member
        have ne : id ≠ other := fun same => held.apart other member (same ▸ own)
        rw [Answered, kept other ne]
        exact held.answered other member
      awaited := by
        intro _ other member
        by_cases same : id = other
        · subst same
          refine .inr fun found held => ?_
          rw [answeredNow] at held
          rw [← Option.some.inj held]
          exact done
        · rw [Answered, kept other same, traffic, flights]
          rcases held.awaited running other member with ⟨flight, flies, rfl⟩ | answered
          · exact .inl ⟨flight, List.mem_filter.mpr ⟨flies, by simpa using Ne.symm same⟩, rfl⟩
          · exact .inr answered
      landed := landed }

theorem Accounted.forget (held : Accounted plan p l) {ids : List RequestId}
    (here : p.stage = .settled ids)
    (follows : Follows (p.forget ids) { settled := l.current, current := [] }) :
    Accounted plan (p.forget ids) { settled := l.current, current := [] } := by
  have running : p.stage ≠ .stopped := by rw [here]; nofun
  have current : ids = l.current := by
    have own := held.current running
    rwa [here] at own
  have answered : ∀ id ∈ l.current, Answered p.tracker id := by
    intro id member
    rcases held.awaited running id member with ⟨flight, flies, rfl⟩ | answered
    · exact absurd (current ▸ member) (held.landed ids here flight flies)
    · exact answered
  have kept : ∀ id, id ∉ l.settled → (p.forget ids).tracker[id]? = p.tracker[id]? := by
    intro id other
    rw [getElem?_tracker_forget, held.previous, if_neg other]
  have outside : ∀ id ∈ l.current, id ∉ l.settled := fun id member old => held.apart id old member
  exact {
    toFollows := follows
    issued := by
      intro id member
      exact held.issued id (.inr (by simpa using member))
    apart := by simp
    tracked := by
      intro n
      by_cases old : plan.freshId n ∈ l.settled
      · rw [getElem?_tracker_forget, held.previous, if_pos old]
        simpa using held.apart _ old
      · rw [kept _ old, held.tracked n]
        simp [old]
    answered := by
      intro id member
      rw [Answered, kept id (outside id member)]
      exact answered id member
    awaited := by simp
    landed := nofun }

def Apart (plan : Plan) (change : Store.Change) : Prop :=
  ∀ n, change.drops (plan.freshId n) = false ∧ change.report? (plan.freshId n) = none

theorem Accounted.next (held : Accounted plan p l) (distinct : Function.Injective plan.freshId)
    {e : Event} {after : Poller} {sent : List Sent} (effect : Effect plan p e after sent)
    (apart : ∀ change, e = .others change → Apart plan change) :
    Accounted plan after (l.next p.stage after.stage sent) := by
  have follows := held.toFollows.next effect
  cases effect with
  | stays e focused =>
    rw [l.next_self] at follows ⊢
    exact held.frame follows (fun _ => rfl) rfl (fun running => ⟨running, rfl⟩) held.landed
  | halts e =>
    rw [l.next_quiet (by nofun)] at follows ⊢
    exact held.frame follows (fun _ => rfl) rfl (fun running => absurd rfl running) nofun
  | moves e stage running noIds unasked =>
    obtain ⟨-, goesOn, unsettled⟩ := Stage.unasked unasked
    rw [l.next_quiet goesOn] at follows ⊢
    exact held.frame follows (fun _ => rfl) rfl (fun _ => ⟨running, rfl⟩)
      fun ids settled => absurd settled (unsettled ids)
  | sends now call left ids here =>
    rw [l.next_of_ne (by nofun)] at follows ⊢
    exact held.send distinct here follows
  | takes id answer left ids here own =>
    have running : p.stage ≠ .stopped := by rw [here]; nofun
    have current := held.current running
    rw [here] at current
    rw [l.next_self] at follows ⊢
    refine held.settle (current ▸ own) running follows rfl rfl fun ids settled => ?_
    exact absurd (here.symm.trans settled) (by nofun)
  | settles id answer ids here own landed =>
    have running : p.stage ≠ .stopped := by rw [here]; nofun
    have current := held.current running
    rw [here] at current
    rw [l.next_quiet (by nofun)] at follows ⊢
    refine held.settle (current ▸ own) running follows rfl rfl ?_
    rintro _ ⟨⟩
    exact landed
  | forgets now ids here =>
    have opened : p.stage ≠ .closing := by rw [here]; nofun
    have booked : l.next p.stage (p.forget ids).stage [] = { settled := l.current, current := [] } :=
      l.next_closing opened
    rw [booked] at follows ⊢
    exact held.forget here follows
  | others change =>
    rw [l.next_self] at follows ⊢
    refine held.frame follows (fun n => ?_) rfl (fun running => ⟨running, rfl⟩) held.landed
    obtain ⟨undropped, unreported⟩ := apart change rfl n
    have applied := p.traffic.store.getElem?_tracker_apply change (plan.freshId n)
    rw [undropped, unreported] at applied
    exact applied

theorem Follows.isSome_after (held : Follows p l) {e : Event} {after : Poller} {sent : List Sent}
    (effect : Effect plan p e after sent) (own : e.change? = none) {id : RequestId}
    (outside : id ∉ l.settled) (there : (p.tracker[id]?).isSome = true) :
    (after.tracker[id]?).isSome = true := by
  have settle {asked : RequestId} {answer : Answer} :
      ((p.traffic.settle asked answer).store.tracker[id]?).isSome = true := by
    rcases p.tracker_settle_cases asked answer with ⟨-, same⟩ | ⟨-, state, -, tracked⟩
    · rw [same]
      exact there
    · rw [tracked]
      split
      · rfl
      · exact there
  cases effect with
  | stays | halts | moves => exact there
  | sends now call left ids here =>
    rw [getElem?_tracker_send]
    split
    · rfl
    · exact there
  | takes | settles => exact settle
  | forgets now ids here =>
    rw [getElem?_tracker_forget, held.previous, if_neg outside]
    exact there
  | others change => contradiction

end Poller

namespace Mount

theorem accounted_start (m : Mount) (unused : ∀ n, m.store.tracker[m.plan.freshId n]? = none) :
    m.poller.Accounted m.plan .empty where
  toFollows := m.follows_start
  issued := by simp [Ledger.empty]
  apart := by simp [Ledger.empty]
  tracked n := by
    have tracker : m.poller.tracker = m.store.tracker := by rw [poller_eq]; rfl
    simp [tracker, unused, Ledger.empty]
  answered := by simp [Ledger.empty]
  awaited := by simp [Ledger.empty]
  landed := by
    intro ids settled
    rw [stage_poller] at settled
    split at settled <;> contradiction

theorem accounted_after (m : Mount) {events : List Event}
    (distinct : Function.Injective m.plan.freshId)
    (unused : ∀ n, m.store.tracker[m.plan.freshId n]? = none)
    (apart : ∀ change, .others change ∈ events → Poller.Apart m.plan change) :
    (m.after events).Accounted m.plan (m.ledger events) := by
  induction events using List.reverseRecOn with
  | nil => exact m.accounted_start unused
  | append_singleton events e ih =>
    have earlier := ih fun change member => apart change (List.mem_append_left _ member)
    rw [ledger_snoc]
    refine earlier.next distinct (m.effect_after events e) ?_
    rintro change rfl
    exact apart change (List.mem_append_right _ List.mem_cons_self)

theorem stage_of_between {p : Poller} (polling : p.status = .polling)
    (between : p.stage.inRound = false) : p.stage = .waiting := by
  unfold Poller.status at polling
  cases stage : p.stage with
  | waiting => rfl
  | idle | stopped => simp [stage, Stage.status] at polling
  | listing | calling | settled | closing => simp [stage, Stage.inRound] at between

/-- While a poller is polling, the tracker has of its requests exactly those of the last settled round,
all of them answered, and those of the round under way. The poller drops no entry but its own. -/
theorem tracker_follows_rounds (m : Mount) (events : List Event)
    (distinct : Function.Injective m.plan.freshId)
    (unused : ∀ n, m.store.tracker[m.plan.freshId n]? = none)
    (apart : ∀ change, .others change ∈ events → Poller.Apart m.plan change) :
    let p := m.after events
    let l := m.ledger events
    (p.status = .polling → p.stage.inRound = false → ∀ n,
      ((p.tracker[m.plan.freshId n]?).isSome = true ↔ m.plan.freshId n ∈ l.settled) ∧
      ∀ state, p.tracker[m.plan.freshId n]? = some state → state.active = false) ∧
    (p.stage.inRound = true → ∀ n,
      (p.tracker[m.plan.freshId n]?).isSome = true ↔
        m.plan.freshId n ∈ l.settled ∨ m.plan.freshId n ∈ l.current) ∧
    ((∀ part, part <+: events → (m.after part).stage ≠ .closing) → l.settled = []) ∧
    (∀ early now since, events = early ++ .tick now :: since → Round m.plan (m.after early) now since →
      let own := ((m.after early).made m.plan (.tick now :: since)).map (·.id)
      l = if p.stage = .closing then { settled := own, current := [] }
        else { settled := (m.ledger early).settled, current := own }) ∧
    ∀ e, e.change? = none → ∀ id, id ∉ (m.made events).map (·.id) →
      (p.tracker[id]?).isSome = true → ((m.after (events ++ [e])).tracker[id]?).isSome = true := by
  intro p l
  have accounted := m.accounted_after distinct unused apart
  refine ⟨?_, fun _ => accounted.tracked, m.settled_eq_nil events, ?_, ?_⟩
  · intro polling between n
    have waiting : p.stage = .waiting := stage_of_between polling between
    have none : (m.ledger events).current = [] := by
      rw [← accounted.current (by rw [waiting]; nofun), waiting]
      rfl
    have tracked : (p.tracker[m.plan.freshId n]?).isSome = true ↔ m.plan.freshId n ∈ l.settled := by
      rw [accounted.tracked n, none]
      exact or_iff_left List.not_mem_nil
    refine ⟨tracked, fun state held => ?_⟩
    have member := tracked.mp (by rw [held]; rfl)
    exact accounted.answered _ member state held
  · rintro early now since rfl round own
    have booked := round.ledger (m.follows_after early)
    rw [← ledger_append, ← after_append] at booked
    exact booked
  · intro e own id outside there
    have unsettled : id ∉ l.settled := fun member =>
      outside (m.mem_made_of_ledger events id (.inl member))
    exact (m.follows_after events).isSome_after (m.effect_after events e) own unsettled there

theorem second_round_replaces_first :
    let run : Run := { info := .new "live" "0" .running, data := .none }
    let m : Mount := {
      plan := {
        runs := ["live"], metricKeys := ["loss"], threshold := 1000
        freshId := fun n => String.ofList (List.replicate n 'r') }
      store := Store.empty.dispatch (.untracked (.getRun "live") (.fulfilled run))
      focused := true
      now := 0 }
    let refuse : Answer := fun _ => .error default
    let first : List Event := [.others (.dispatch ⟨some "other", .listExperiments, .pending⟩),
      .tick 10, .proceed 10, .proceed 10, .proceed 10, .proceed 10, .answered "r" refuse,
      .answered "" refuse, .proceed 10, .proceed 10]
    let asked : List Event :=
      first ++ [.tick 20, .proceed 20, .proceed 20, .proceed 20, .proceed 20]
    let answered : List Event := asked ++ [.answered "rr" refuse, .answered "rrr" refuse]
    Function.Injective m.plan.freshId ∧
      (∀ n, m.store.tracker[m.plan.freshId n]? = none) ∧
      (∀ n, ((m.after first).tracker[m.plan.freshId n]?).isSome = true ↔
        m.plan.freshId n ∈ ["", "r"]) ∧
      (∀ n, ((m.after asked).tracker[m.plan.freshId n]?).isSome = true ↔
        m.plan.freshId n ∈ ["", "r"] ∨ m.plan.freshId n ∈ ["rr", "rrr"]) ∧
      ((m.after (answered ++ [.proceed 20])).tracker["other"]?).isSome = true := by
  intro run m refuse first asked answered
  have distinct : Function.Injective m.plan.freshId := by
    intro a b same
    have lengths := congrArg (fun text : String => text.toList.length) same
    simpa [m] using lengths
  have unused : ∀ n, m.store.tracker[m.plan.freshId n]? = none := fun n =>
    Std.ExtTreeMap.getElem?_empty
  have foreign : ∀ n, "other" ≠ m.plan.freshId n := by
    intro n same
    have letters : "other".toList = List.replicate n 'r' := by simpa [m] using congrArg String.toList same
    have first : 'o' ∈ List.replicate n 'r' := letters ▸ List.mem_cons_self
    exact absurd (List.eq_of_mem_replicate first) (by decide)
  have apart : ∀ change, .others change ∈ answered → Poller.Apart m.plan change := by
    intro change member n
    have same : change = .dispatch ⟨some "other", .listExperiments, .pending⟩ := by
      simpa [answered, asked, first] using member
    rw [same]
    exact ⟨rfl, if_neg fun own => foreign n (Option.some.inj own)⟩
  have apartAsked : ∀ change, .others change ∈ asked → Poller.Apart m.plan change :=
    fun change member => apart change (List.mem_append_left _ member)
  have apartFirst : ∀ change, .others change ∈ first → Poller.Apart m.plan change :=
    fun change member => apartAsked change (List.mem_append_left _ member)
  have firstLedger : m.ledger first = { settled := ["", "r"], current := [] } := by decide +kernel
  have askedLedger : m.ledger asked = { settled := ["", "r"], current := ["rr", "rrr"] } := by
    decide +kernel
  have between := (tracker_follows_rounds m first distinct unused apartFirst).1
    (by decide +kernel) (by decide +kernel)
  have inside := (tracker_follows_rounds m asked distinct unused apartAsked).2.1 (by decide +kernel)
  have kept := (tracker_follows_rounds m answered distinct unused apart).2.2.2.2
  rw [firstLedger] at between
  rw [askedLedger] at inside
  refine ⟨distinct, unused, fun n => (between n).1, inside, ?_⟩
  exact kept (.proceed 20) rfl "other" (by decide +kernel) (by decide +kernel)

end Mount

end RunBoard.Poll
