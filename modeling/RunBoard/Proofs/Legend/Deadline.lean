import RunBoard.Proofs.Legend.Settlement

namespace RunBoard.Legend

theorem Held.window_lt_elapsed_iff (h : Held) (window : Nat) (now : Int) :
    window < h.elapsed now ↔ h.time + window < now := by
  unfold elapsed
  omega

namespace Resolver

theorem deadline_eq_some_iff (r : Resolver) (d : Int) :
    r.deadline = some d ↔ ∃ h, r.held = some h ∧ d = h.time + r.window := by
  unfold deadline
  cases r.held <;> simp [eq_comm]

/-- The held click waits until `d`, that time included, and is overdue from then on. -/
structure Waits (r : Resolver) (h : Held) (d : Int) : Prop where
  held : r.held = some h
  poll_until {now : Int} (early : now ≤ d) : r.poll now = (none, r)
  click_until {now : Int} (early : now ≤ d) : r.click h.series now = ([.isolate h.series], r.release)
  poll_after {now : Int} (late : d < now) : r.poll now = (some (.toggle h.series), r.release)
  click_after {now : Int} (late : d < now) : r.click h.series now =
    ([.toggle h.series], { r with held := some { series := h.series, time := now } })

theorem waits_of_held {r : Resolver} {h : Held} (held : r.held = some h) :
    r.Waits h (h.time + r.window) := by
  have passed (now : Int) : r.window < h.elapsed now ↔ h.time + r.window < now :=
    h.window_lt_elapsed_iff r.window now
  have waiting {now : Int} (early : now ≤ h.time + r.window) : ¬r.window < h.elapsed now := by
    rw [passed]
    exact Int.not_lt.mpr early
  refine ⟨held, ?_, ?_, ?_, ?_⟩
  · intro now early
    exact poll_waiting held (waiting early)
  · intro now early
    have soon : h.elapsed now ≤ r.window := Nat.not_lt.mp (waiting early)
    exact click_double held soon
  · intro now late
    exact poll_overdue held ((passed now).mpr late)
  · intro now late
    rw [click_overdue held ((passed now).mpr late)]
    rfl

theorem last_click_of_held {window : Nat} {events : List Event} {h : Held}
    (held : ((new window).after events).held = some h) : (clicks events).getLast? = some h := by
  obtain ⟨answered, -, split⟩ := (new window).settled_reports events
  have clicked : clicks events = answered.flatten ++ [h] := by
    rw [held] at split
    exact split
  rw [clicked, List.getLast?_concat]

/-- A deadline is one window after the last click, and it belongs to the window: until then, that time
included, a click of the series is a double click and a poll reports nothing and leaves the click
held; at every later time both count it as single. -/
theorem deadline_ends_window (window : Nat) (events : List Event) (d : Int)
    (due : ((new window).after events).deadline = some d) :
    ∃ h, (clicks events).getLast? = some h ∧ d = h.time + window ∧
      ((new window).after events).Waits h d := by
  obtain ⟨h, held, rfl⟩ := (deadline_eq_some_iff _ d).mp due
  have sum : h.time + ((new window).after events).window = h.time + window := by
    rw [window_after, new]
  exact ⟨h, last_click_of_held held, sum, waits_of_held held⟩

theorem deadline_ends_window_of_second :
    let events : List Event := [.click "loss" 0, .poll 11, .click "step" 12, .poll 15]
    let r := (new 10).after events
    r.deadline = some 22 ∧ r.poll 22 = (none, r) ∧
      r.poll 23 = (some (.toggle "step"), r.release) ∧
      r.click "step" 22 = ([.isolate "step"], r.release) := by
  intro events r
  have due : r.deadline = some 22 := by decide
  obtain ⟨h, last, -, waits⟩ := deadline_ends_window 10 events 22 due
  obtain rfl : { series := "step", time := 12 } = h := Option.some.inj last
  exact ⟨due, waits.poll_until (by decide), waits.poll_after (by decide),
    waits.click_until (by decide)⟩

theorem poll_at_deadline_is_early :
    let events : List Event := [.click "loss" 0]
    let r := (new 300).after events
    InTime events ∧ r.held = some { series := "loss", time := 0 } ∧ r.deadline = some 300 ∧
      ¬∀ now, 300 ≤ now → r.poll now = (some (.toggle "loss"), r.release) := by
  intro events r
  refine ⟨by decide, by decide, by decide, ?_⟩
  intro reported
  have early : r.poll 300 ≠ (some (.toggle "loss"), r.release) := by decide
  exact early (reported 300 (Int.le_refl 300))

end Resolver

end RunBoard.Legend
