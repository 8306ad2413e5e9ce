namespace RunBoard.Poll

structure Ticker where
  interval : Nat
  interval_pos : 0 < interval
  due : Nat

namespace Ticker

def start (interval now : Nat) (interval_pos : 0 < interval) : Ticker :=
  { interval, interval_pos, due := now + interval }

/-- A tick later than this many milliseconds skips the ones that it has missed. -/
def tolerance : Nat := 5

def fire (t : Ticker) (now : Nat) : Ticker :=
  { t with
    due :=
      if t.due + tolerance < now then now + (t.interval - (now - t.due) % t.interval)
      else t.due + t.interval }

theorem due_lt_due_fire (t : Ticker) (now : Nat) : t.due < (t.fire now).due := by
  have pos := t.interval_pos
  have rest := Nat.mod_lt (now - t.due) pos
  simp only [fire]
  split <;> omega

end Ticker

end RunBoard.Poll
