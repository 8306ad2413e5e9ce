import RunBoard.Legend.Click

namespace RunBoard.Legend

inductive Event where
  | click (series : String) (time : Int)
  | poll (time : Int)
  deriving DecidableEq, Inhabited

namespace Event

def time : Event → Int
  | click _ time | poll time => time

def isClick : Event → Bool
  | click _ _ => true
  | poll _ => false

end Event

def InTime (events : List Event) : Prop := events.Pairwise fun a b => a.time ≤ b.time

instance (events : List Event) : Decidable (InTime events) :=
  inferInstanceAs (Decidable (events.Pairwise _))

theorem Held.elapsed_mono (h : Held) {now later : Int} (le : now ≤ later) :
    h.elapsed now ≤ h.elapsed later := by
  unfold elapsed
  omega

namespace Resolver

def step (r : Resolver) : Event → List Change × Resolver
  | .click series time => r.click series time
  | .poll time => ((r.poll time).1.toList, (r.poll time).2)

def after (r : Resolver) (events : List Event) : Resolver :=
  events.foldl (fun state e => (state.step e).2) r

def reports (r : Resolver) : List Event → List Change
  | [] => []
  | e :: rest => (r.step e).1 ++ (r.step e).2.reports rest

/-- What the held click comes to if no other follows. -/
def unsettled (r : Resolver) : List Change := r.held.toList.map fun h => .toggle h.series

def outcome (r : Resolver) (events : List Event) : List Change :=
  r.reports events ++ (r.after events).unsettled

def release (r : Resolver) : Resolver := { r with held := none }

theorem outcome_cons (r : Resolver) (e : Event) (rest : List Event) :
    r.outcome (e :: rest) = (r.step e).1 ++ (r.step e).2.outcome rest :=
  List.append_assoc ..

theorem poll_waiting {r : Resolver} {h : Held} {now : Int} (held : r.held = some h)
    (early : ¬r.window < h.elapsed now) : r.poll now = (none, r) := by
  simp only [poll, held, if_neg early]

theorem poll_overdue {r : Resolver} {h : Held} {now : Int} (held : r.held = some h)
    (late : r.window < h.elapsed now) : r.poll now = (some (.toggle h.series), r.release) := by
  simp only [poll, held, if_pos late, release]

theorem click_overdue {r : Resolver} {h : Held} {now : Int} (held : r.held = some h)
    (late : r.window < h.elapsed now) (series : String) :
    r.click series now =
      (.toggle h.series :: (r.release.click series now).1, (r.release.click series now).2) := by
  have single : ¬(h.series = series ∧ h.elapsed now ≤ r.window) := fun double =>
    Nat.not_le_of_lt late double.2
  simp only [click, held, if_neg single, release]

theorem outcome_overdue {r : Resolver} {h : Held} {events : List Event} (held : r.held = some h)
    (late : ∀ e ∈ events, r.window < h.elapsed e.time) :
    r.outcome events = .toggle h.series :: r.release.outcome events := by
  cases events with
  | nil => simp [outcome, reports, after, unsettled, held, release]
  | cons e rest =>
    rw [outcome_cons, outcome_cons]
    cases e with
    | click series time =>
      have lateThen : r.window < h.elapsed time := late _ List.mem_cons_self
      simp only [step]
      rw [click_overdue held lateThen]
      rfl
    | poll time =>
      have lateThen : r.window < h.elapsed time := late _ List.mem_cons_self
      simp only [step]
      rw [poll_overdue held lateThen]
      rfl

theorem outcome_poll (r : Resolver) {now : Int} {rest : List Event}
    (later : ∀ e ∈ rest, now ≤ e.time) : r.outcome (.poll now :: rest) = r.outcome rest := by
  rw [outcome_cons, step]
  cases held : r.held with
  | none => simp [poll, held]
  | some h =>
    by_cases late : r.window < h.elapsed now
    · have lateStill : ∀ e ∈ rest, r.window < h.elapsed e.time := fun e member =>
        Nat.lt_of_lt_of_le late (h.elapsed_mono (later e member))
      rw [poll_overdue held late, outcome_overdue held lateStill]
      rfl
    · rw [poll_waiting held late]
      rfl

theorem outcome_clicks (r : Resolver) {events : List Event} (inTime : InTime events) :
    r.outcome (events.filter Event.isClick) = r.outcome events := by
  induction events generalizing r with
  | nil => rfl
  | cons e rest ih =>
    obtain ⟨later, inTimeRest⟩ := List.pairwise_cons.mp inTime
    cases e with
    | click series time =>
      rw [List.filter_cons_of_pos rfl, outcome_cons, outcome_cons, ih _ inTimeRest]
    | poll now =>
      have polled : r.outcome (.poll now :: rest) = r.outcome rest := r.outcome_poll later
      rw [List.filter_cons_of_neg Bool.false_ne_true, ih r inTimeRest, polled]

/-- Polls that are left out change when a click is reported, but not what is reported, the click
that is held at the end counted as single. -/
theorem outcome_of_fewer_polls (r : Resolver) {events fewer : List Event} (inTime : InTime events)
    (kept : fewer.Sublist events)
    (sameClicks : fewer.filter Event.isClick = events.filter Event.isClick) :
    r.outcome fewer = r.outcome events := by
  have inTimeFewer : InTime fewer := List.Pairwise.sublist kept inTime
  rw [← r.outcome_clicks inTimeFewer, sameClicks, r.outcome_clicks inTime]

theorem outcome_without_settling_poll :
    let events : List Event :=
      [.click "loss" 0, .poll 10, .poll 11, .click "loss" 12, .click "loss" 22, .click "step" 23,
        .poll 30]
    let fewer : List Event :=
      [.click "loss" 0, .poll 10, .click "loss" 12, .click "loss" 22, .click "step" 23]
    InTime events ∧ fewer.Sublist events ∧
      fewer.filter Event.isClick = events.filter Event.isClick ∧
      (new 10).outcome events = [.toggle "loss", .isolate "loss", .toggle "step"] ∧
      (new 10).outcome fewer = (new 10).outcome events := by
  intro events fewer
  have inTime : InTime events := by decide
  have kept : fewer.Sublist events := by decide
  refine ⟨inTime, kept, rfl, by decide, ?_⟩
  exact outcome_of_fewer_polls (new 10) inTime kept rfl

end Resolver

end RunBoard.Legend
