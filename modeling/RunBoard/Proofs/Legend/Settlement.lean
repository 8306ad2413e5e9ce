import Mathlib.Data.List.Forall2
import RunBoard.Proofs.Legend.Schedule

namespace RunBoard.Legend

def Event.clicked? : Event → Option Held
  | .click series time => some { series, time }
  | .poll _ => none

def clicks (events : List Event) : List Held := events.filterMap Event.clicked?

/-- The clicks that a change answers: one of its series, or two of them within the window. -/
inductive Settles (window : Nat) : Change → List Held → Prop
  | single (h : Held) : Settles window (.toggle h.series) [h]
  | double (h : Held) (time : Int) (soon : h.elapsed time ≤ window) :
    Settles window (.isolate h.series) [h, { series := h.series, time }]

theorem Settles.countP {window : Nat} {change : Change} {answered : List Held}
    (settles : Settles window change answered) (series : String) :
    answered.countP (·.series == series) =
      [change].count (.toggle series) + 2 * [change].count (.isolate series) := by
  cases settles with
  | single h => by_cases own : h.series = series <;> simp [own]
  | double h time soon => by_cases own : h.series = series <;> simp [own]

theorem countP_flatten {window : Nat} {changes : List Change} {answered : List (List Held)}
    (settled : List.Forall₂ (Settles window) changes answered) (series : String) :
    answered.flatten.countP (·.series == series) =
      changes.count (.toggle series) + 2 * changes.count (.isolate series) := by
  induction settled with
  | nil => rfl
  | @cons change group changes groups first _ ih =>
    have here := first.countP series
    have apart (c : Change) : (change :: changes).count c = [change].count c + changes.count c := by
      rw [← List.singleton_append, List.count_append]
    rw [List.flatten_cons, List.countP_append, here, ih, apart, apart]
    omega

namespace Resolver

inductive Turn (r : Resolver) : Event → List Change → Resolver → Prop
  | first {series : String} {time : Int} (free : r.held = none) :
    Turn r (.click series time) [] { r with held := some { series, time } }
  | double {h : Held} {time : Int} (held : r.held = some h) (soon : h.elapsed time ≤ r.window) :
    Turn r (.click h.series time) [.isolate h.series] r.release
  | next {h : Held} {series : String} {time : Int} (held : r.held = some h)
    (single : ¬(h.series = series ∧ h.elapsed time ≤ r.window)) :
    Turn r (.click series time) [.toggle h.series] { r with held := some { series, time } }
  | late {h : Held} {time : Int} (held : r.held = some h) (late : r.window < h.elapsed time) :
    Turn r (.poll time) [.toggle h.series] r.release
  | idle {time : Int} (waits : ∀ h, r.held = some h → h.elapsed time ≤ r.window) :
    Turn r (.poll time) [] r

theorem click_double {r : Resolver} {h : Held} {now : Int} (held : r.held = some h)
    (soon : h.elapsed now ≤ r.window) : r.click h.series now = ([.isolate h.series], r.release) := by
  simp only [click, held, soon, and_self, if_true, release]

theorem turn_step (r : Resolver) (e : Event) : r.Turn e (r.step e).1 (r.step e).2 := by
  cases e with
  | click series time =>
    cases held : r.held with
    | none =>
      have clicked : r.click series time = ([], { r with held := some { series, time } }) := by
        simp only [click, held]
      rw [step, clicked]
      exact .first held
    | some h =>
      by_cases double : h.series = series ∧ h.elapsed time ≤ r.window
      · obtain ⟨rfl, soon⟩ := double
        rw [step, click_double held soon]
        exact .double held soon
      · have clicked : r.click series time =
            ([.toggle h.series], { r with held := some { series, time } }) := by
          simp only [click, held, if_neg double]
        rw [step, clicked]
        exact .next held double
  | poll time =>
    cases held : r.held with
    | none =>
      have polled : r.poll time = (none, r) := by simp only [poll, held]
      rw [step, polled]
      exact .idle fun h other => by rw [held] at other; contradiction
    | some h =>
      by_cases late : r.window < h.elapsed time
      · rw [step, poll_overdue held late]
        exact .late held late
      · rw [step, poll_waiting held late]
        exact .idle fun other same => by rw [held] at same; cases same; omega

theorem Turn.window {r next : Resolver} {e : Event} {changes : List Change}
    (turn : r.Turn e changes next) : next.window = r.window := by
  cases turn <;> rfl

theorem Turn.settled {r next : Resolver} {e : Event} {changes : List Change}
    (turn : r.Turn e changes next) :
    ∃ answered, List.Forall₂ (Settles r.window) changes answered ∧
      r.held.toList ++ e.clicked?.toList = answered.flatten ++ next.held.toList := by
  cases turn with
  | first free => exact ⟨[], .nil, by simp [free, Event.clicked?]⟩
  | @double h time held soon =>
    have answer : Settles r.window (.isolate h.series) [h, { series := h.series, time }] :=
      .double h time soon
    exact ⟨[_], .cons answer .nil, by simp [held, Event.clicked?, release]⟩
  | @next h series time held single =>
    exact ⟨[_], .cons (.single h) .nil, by simp [held, Event.clicked?]⟩
  | @late h time held late =>
    exact ⟨[_], .cons (.single h) .nil, by simp [held, Event.clicked?, release]⟩
  | idle waits => exact ⟨[], .nil, by simp [Event.clicked?]⟩

theorem window_after (r : Resolver) (events : List Event) : (r.after events).window = r.window := by
  induction events generalizing r with
  | nil => rfl
  | cons e rest ih =>
    have here : (r.step e).2.window = r.window := (r.turn_step e).window
    have later : ((r.step e).2.after rest).window = (r.step e).2.window := ih _
    exact later.trans here

theorem settled_reports (r : Resolver) (events : List Event) :
    ∃ answered, List.Forall₂ (Settles r.window) (r.reports events) answered ∧
      r.held.toList ++ clicks events = answered.flatten ++ (r.after events).held.toList := by
  induction events generalizing r with
  | nil => exact ⟨[], .nil, List.append_nil _⟩
  | cons e rest ih =>
    obtain ⟨now, here, split⟩ := (r.turn_step e).settled
    obtain ⟨later, there, splitRest⟩ := ih (r.step e).2
    rw [(r.turn_step e).window] at there
    refine ⟨now ++ later, List.rel_append here there, ?_⟩
    have first : clicks (e :: rest) = e.clicked?.toList ++ clicks rest := by
      cases e <;> rfl
    calc r.held.toList ++ clicks (e :: rest)
        = (r.held.toList ++ e.clicked?.toList) ++ clicks rest := by
          rw [first, List.append_assoc]
      _ = now.flatten ++ ((r.step e).2.held.toList ++ clicks rest) := by
          rw [split, List.append_assoc]
      _ = (now ++ later).flatten ++ (r.after (e :: rest)).held.toList := by
          rw [splitRest, List.flatten_append, List.append_assoc]
          rfl

/-- Whatever the times: of each series, every click counts in one toggle, as one of two in an
isolation, or is held at the end. The changes answer the clicks from the first on, in their order,
and leave at most one. -/
theorem every_click_counts_once (window : Nat) (events : List Event) :
    let changes := (new window).reports events
    let held := ((new window).after events).held
    (∀ series, (clicks events).countP (·.series == series) =
      changes.count (.toggle series) + 2 * changes.count (.isolate series) +
        if held.any (·.series == series) then 1 else 0) ∧
    ∃ answered : List (List Held), List.Forall₂ (Settles window) changes answered ∧
      clicks events = answered.flatten ++ held.toList ∧
      (clicks events).length ≤ answered.flatten.length + 1 := by
  intro changes held
  obtain ⟨answered, settled, split⟩ := (new window).settled_reports events
  have inOrder : clicks events = answered.flatten ++ held.toList := split
  refine ⟨?_, answered, settled, inOrder, ?_⟩
  · intro series
    have counted := countP_flatten settled series
    have left : held.toList.countP (·.series == series) =
        if held.any (·.series == series) then 1 else 0 := by
      cases held with
      | none => rfl
      | some h => simp [List.countP_cons]
    rw [inOrder, List.countP_append, counted, left]
  · have one : held.toList.length ≤ 1 := by cases held <;> simp
    rw [inOrder, List.length_append]
    exact Nat.add_le_add_left one _

end Resolver

end RunBoard.Legend
