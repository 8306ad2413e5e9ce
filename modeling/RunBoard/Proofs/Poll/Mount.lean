import RunBoard.Proofs.Poll.Progress

namespace RunBoard.Poll

structure Mount where
  plan : Plan
  store : Store
  focused : Bool
  now : Int

namespace Mount

def poller (m : Mount) : Poller := (Poller.new m.store m.focused).start m.plan m.now

def after (m : Mount) (events : List Event) : Poller := m.poller.after m.plan events

def made (m : Mount) (events : List Event) : List Sent := m.poller.made m.plan events

def focusAfter (m : Mount) (events : List Event) : Bool :=
  (events.filterMap Event.focus?).getLast?.getD m.focused

def active (m : Mount) : List String :=
  activeRuns m.store.entities m.plan.runs m.now m.plan.threshold

theorem stage_poller (m : Mount) :
    m.poller.stage = if m.active = [] then .stopped else .waiting :=
  (Poller.new m.store m.focused).stage_start m.now

theorem outside_poller (m : Mount) : m.poller.stage.inRound = false := by
  rw [stage_poller]
  split <;> rfl

theorem started_poller (m : Mount) : m.poller.status ≠ .idle := by
  unfold Poller.status
  rw [stage_poller]
  split <;> decide

theorem after_append (m : Mount) (first rest : List Event) :
    m.after (first ++ rest) = (m.after first).after m.plan rest :=
  m.poller.after_append first rest

theorem focused_after (m : Mount) (events : List Event) :
    (m.after events).focused = m.focusAfter events := by
  have start : m.poller.focused = m.focused := by
    unfold poller Poller.start Poller.continueAt
    split <;> rfl
  unfold after focusAfter
  rw [Poller.focused_after, start]

theorem status_after (m : Mount) (events : List Event) :
    (m.after events).status = .polling ∨ (m.after events).status = .stopped := by
  have started : (m.after events).status ≠ .idle := Poller.started_after m.started_poller events
  cases status : (m.after events).status with
  | idle => contradiction
  | polling => exact .inl rfl
  | stopped => exact .inr rfl

theorem stopped_after (m : Mount) (before rest : List Event)
    (stopped : (m.after before).status = .stopped) :
    (m.after (before ++ rest)).status = .stopped := by
  have still := Poller.after_stopped (Poller.status_eq_stopped.mp stopped) m.plan rest
  rw [after_append]
  exact Poller.status_eq_stopped.mpr still.1

theorem never_calls_iff (m : Mount) :
    ((m.after []).status = .stopped ∧ ∀ events, m.made events = []) ↔ m.active = [] := by
  have stage := m.stage_poller
  constructor
  · intro ⟨stopped, _⟩
    have same : m.poller.stage = .stopped := Poller.status_eq_stopped.mp stopped
    rw [stage] at same
    split at same
    · assumption
    · contradiction
  · intro none
    rw [if_pos none] at stage
    exact ⟨Poller.status_eq_stopped.mpr stage,
      fun events => (Poller.after_stopped stage m.plan events).2.1⟩

theorem exists_round (m : Mount) (events : List Event)
    (inside : (m.after events).stage.inRound = true) :
    ∃ early now since, events = early ++ .tick now :: since ∧ m.focusAfter early = true ∧
      Round m.plan (m.after early) now since := by
  obtain ⟨early, now, since, same, round⟩ := Poller.exists_round m.outside_poller events inside
  refine ⟨early, now, since, same, ?_, round⟩
  rw [← focused_after]
  exact round.focused

theorem made_in_round (m : Mount) (before : List Event) (e : Event) (call : Sent)
    (made : call ∈ ((m.after before).step m.plan e).2) :
    ∃ early now since, before = early ++ .tick now :: since ∧ m.focusAfter early = true ∧
      Round m.plan (m.after early) now (since ++ [e]) := by
  obtain ⟨inside, still⟩ := ((m.after before).step_move m.plan e).sent made
  obtain ⟨early, now, since, rfl, focused, round⟩ := m.exists_round before inside
  refine ⟨early, now, since, rfl, focused, round.snoc ?_⟩
  rwa [after_append] at still

theorem round_asks (m : Mount) (early : List Event) (now : Int) (since : List Event)
    (round : Round m.plan (m.after early) now since) :
    ∃ found : List Lookup,
      (∀ one ∈ found, ∃ part, part <+: since ∧
        one.Holds m.plan (m.after (early ++ .tick now :: part)).traffic.store.entities) ∧
      found.map (·.run) <+: (m.after early).active m.plan now ∧
      ((m.after early).made m.plan (.tick now :: since)).map (·.query) <+:
        found.flatMap (·.queries) ∧
      ((m.after (early ++ .tick now :: since)).stage.hasSettled = true →
        found.map (·.run) = (m.after early).active m.plan now ∧
          ((m.after early).made m.plan (.tick now :: since)).map (·.query) =
            found.flatMap (·.queries)) := by
  obtain ⟨found, held, covers⟩ := round.covers
  have extent := covers.isPrefix
  simp only [after_append]
  exact ⟨found, held, extent⟩

theorem round_settles (m : Mount) (course : Course) (fair : Poller.Fair m.plan m.poller course)
    (n : Nat) (now : Int) (begins : course n = .tick now)
    (waiting : (m.after (course.segment 0 n)).stage = .waiting)
    (focused : m.focusAfter (course.segment 0 n) = true)
    (active : (m.after (course.segment 0 n)).active m.plan now ≠ []) :
    ∃ count, Round m.plan (m.after (course.segment 0 n)) now (course.segment (n + 1) count) ∧
      (m.after (course.segment 0 (n + 1 + count))).stage.hasSettled = true := by
  have along (count : Nat) :
      m.after (course.segment 0 count) = m.poller.along m.plan course count := by
    have reached : m.after (course.segment 0 count) = m.poller.along m.plan course (0 + count) :=
      m.poller.after_segment course 0 count
    rwa [Nat.zero_add] at reached
  rw [← focused_after] at focused
  simp only [along] at waiting focused active ⊢
  exact (tick_begins_round_that_settles m.plan m.poller course fair n now begins waiting focused
    active).2

theorem round_of_one_run_settles :
    let run : Run := { info := .new "live" "0" .running, data := .none }
    let m : Mount := {
      plan := {
        runs := ["live"], metricKeys := ["loss"], threshold := 1000
        freshId := fun n => String.ofList (List.replicate n 'r') }
      store := Store.empty.dispatch (.untracked (.getRun "live") (.fulfilled run))
      focused := true
      now := 0 }
    let events : List Event := [.tick 10, .proceed 10, .proceed 10, .proceed 10, .proceed 10,
      .answered "r" fun _ => .error default, .answered "" fun _ => .error default]
    let course : Course := fun n => events[n]?.getD (.proceed 20)
    Poller.Fair m.plan m.poller course ∧
      ∃ count, (m.after (course.segment 0 (0 + 1 + count))).stage.hasSettled = true := by
  intro run m events course
  have later (n : Nat) (beyond : 7 ≤ n) : course n = .proceed 20 := by
    have none : events[n]? = none := List.getElem?_eq_none beyond
    simp only [course, none, Option.getD_none]
  have waiting : (m.poller.along m.plan course 9).stage = .waiting := by decide +kernel
  have between := Poller.along_of_waiting m.plan m.poller course waiting fun k after =>
    ⟨20, later k (by omega)⟩
  have sent : ∀ n < 9, ((m.poller.along m.plan course n).step m.plan (course n)).2.map (·.id) =
      if n = 3 then [""] else if n = 4 then ["r"] else [] := by decide +kernel
  have fair : Poller.Fair m.plan m.poller course := by
    refine ⟨fun n => ?_, fun n => ⟨max n 7, by omega, 20, later _ (by omega)⟩, ?_⟩
    · by_cases early : n < 7
      · revert n
        decide +kernel
      · rw [later n (by omega)]
        rfl
    · intro n call made
      by_cases early : n < 9
      · have own := List.mem_map_of_mem (f := (·.id)) made
        rw [sent n early] at own
        split at own
        · exact ⟨6, by omega, _, by rw [List.mem_singleton.mp own]; rfl⟩
        split at own
        · exact ⟨5, by omega, _, by rw [List.mem_singleton.mp own]; rfl⟩
        · contradiction
      · rw [later n (by omega), Poller.step, Poller.proceed, between n (by omega)] at made
        contradiction
  obtain ⟨count, -, settled⟩ := m.round_settles course fair 0 10 rfl (by decide +kernel)
    (by decide +kernel) (by decide +kernel)
  exact ⟨fair, count, settled⟩

/-- A poller moves its status on, makes its calls in rounds that a tick with focus begins for the runs
active then and that settle once they are answered, and comes to a silent end. -/
structure KeepsToRounds (m : Mount) : Prop where
  idle : (Poller.new m.store m.focused).status = .idle
  never : ((m.after []).status = .stopped ∧ ∀ events, m.made events = []) ↔ m.active = []
  onward : ∀ events, (m.after events).status = .polling ∨ (m.after events).status = .stopped
  final : ∀ before rest, (m.after before).status = .stopped →
    (m.after (before ++ rest)).status = .stopped
  calls : ∀ before e, ∀ call ∈ ((m.after before).step m.plan e).2,
    ∃ early now since, before = early ++ .tick now :: since ∧ m.focusAfter early = true ∧
      Round m.plan (m.after early) now (since ++ [e])
  rounds : ∀ events, (m.after events).stage.inRound = true →
    ∃ early now since, events = early ++ .tick now :: since ∧ m.focusAfter early = true ∧
      Round m.plan (m.after early) now since
  asks : ∀ early now since, Round m.plan (m.after early) now since →
    ∃ found : List Lookup,
      (∀ one ∈ found, ∃ part, part <+: since ∧
        one.Holds m.plan (m.after (early ++ .tick now :: part)).traffic.store.entities) ∧
      found.map (·.run) <+: (m.after early).active m.plan now ∧
      ((m.after early).made m.plan (.tick now :: since)).map (·.query) <+:
        found.flatMap (·.queries) ∧
      ((m.after (early ++ .tick now :: since)).stage.hasSettled = true →
        found.map (·.run) = (m.after early).active m.plan now ∧
          ((m.after early).made m.plan (.tick now :: since)).map (·.query) =
            found.flatMap (·.queries))
  settles : ∀ course, Poller.Fair m.plan m.poller course → ∀ n now, course n = .tick now →
    (m.after (course.segment 0 n)).stage = .waiting → m.focusAfter (course.segment 0 n) = true →
    (m.after (course.segment 0 n)).active m.plan now ≠ [] →
      ∃ count, Round m.plan (m.after (course.segment 0 n)) now (course.segment (n + 1) count) ∧
        (m.after (course.segment 0 (n + 1 + count))).stage.hasSettled = true
  ends : ∀ before e rest, e.endsPolling = true →
    (m.after (before ++ e :: rest)).status = .stopped ∧
      m.made (before ++ e :: rest) = m.made before ∧
      (m.after (before ++ e :: rest)).traffic.store =
        (rest.filterMap Event.change?).foldl Store.apply (m.after before).traffic.store

theorem silent_end (m : Mount) (before : List Event) (e : Event) (rest : List Event)
    (ends : e.endsPolling = true) :
    (m.after (before ++ e :: rest)).status = .stopped ∧
      m.made (before ++ e :: rest) = m.made before ∧
      (m.after (before ++ e :: rest)).traffic.store =
        (rest.filterMap Event.change?).foldl Store.apply (m.after before).traffic.store := by
  obtain ⟨stopped, silent, store⟩ := (m.after before).after_endsPolling m.plan ends rest
  rw [after_append]
  refine ⟨stopped, ?_, store⟩
  rw [made, Poller.made_append]
  exact (congrArg _ silent).trans (List.append_nil _)

theorem keeps_to_rounds (m : Mount) : m.KeepsToRounds where
  idle := rfl
  never := m.never_calls_iff
  onward := m.status_after
  final := m.stopped_after
  calls := m.made_in_round
  rounds := m.exists_round
  asks := m.round_asks
  settles := m.round_settles
  ends := m.silent_end

example :
    let run : Run := { info := .new "live" "0" .running, data := default }
    let m : Mount := {
      plan := {
        runs := ["lost", "live"], metricKeys := ["loss"], threshold := 1000
        freshId := fun n => toString n }
      store := Store.empty.dispatch (.untracked (.getRun "live") (.fulfilled run))
      focused := false
      now := 0 }
    (m.made [.tick 10, .focus, .tick 20, .proceed 20, .proceed 20, .proceed 20, .proceed 20]).map
        (·.query) =
      [.getMetricHistory "live" "loss", .getRun "live"] := by
  decide +kernel

end Mount

end RunBoard.Poll
