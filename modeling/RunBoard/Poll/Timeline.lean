import RunBoard.Poll.Poller
import RunBoard.Poll.Ticker

namespace RunBoard.Poll

structure Server where
  runs : Table Run
  histories : Table (Table (List Metric))
  runLatency : Nat
  historyLatency : Nat
  failure : Option ApiError

namespace Server

def latency (s : Server) : Query → Nat
  | .getRun _ => s.runLatency
  | _ => s.historyLatency

def answer (s : Server) : Answer
  | .getRun uuid =>
    match s.failure, s.runs[uuid]? with
    | some e, _ => .error e
    | none, some run => .ok run
    | none, none => .error (.notFound ("run " ++ uuid ++ " not found"))
  | .getMetricHistory run key =>
    match s.failure with
    | some e => .error e
    | none => .ok ((s.histories.lookIn run key).getD [])
  | _ => .error (.new .internalError "not served")

end Server

structure Transit where
  due : Nat
  id : RequestId

structure Timeline where
  clock : Nat
  ticker : Ticker
  plan : Plan
  server : Server
  poller : Poller
  transits : List Transit
  calls : List (Nat × Query)

inductive Occurrence where
  | tick
  | proceed
  | arrival (id : RequestId)

namespace Timeline

def wallClock : Int := 0

def stampOf (age : Int64) : Int64 := -age

def apply (t : Timeline) (e : Event) : Timeline :=
  let (poller, sent) := t.poller.step t.plan e
  { t with
    poller
    transits := t.transits ++
      sent.map fun call => { due := t.clock + t.server.latency call.query, id := call.id }
    calls := t.calls ++ sent.map fun call => (t.clock, call.query) }

def start (plan : Plan) (settings : Settings) (server : Server) (runs : List Run) (focused : Bool) :
    Timeline :=
  let store := runs.foldl
    (fun store run => store.dispatch (.untracked (.getRun run.info.uuid) (.fulfilled run))) .empty
  let ticker := Ticker.start settings.pollInterval 0 (by simp only [Settings.pollInterval]; omega)
  let poller := (Poller.new store focused).start plan wallClock
  { clock := 0, ticker, plan, server, poller, transits := [], calls := [] }

def firstTransit? : List Transit → Option Transit
  | [] => none
  | a :: rest =>
    match firstTransit? rest with
    | some b => if b.due < a.due then some b else some a
    | none => some a

/-- Between rounds a tick comes next, which cannot lie in the past, and an answer while a round has
nothing to do but wait. -/
def next? (t : Timeline) : Option (Nat × Occurrence) :=
  match t.poller.stage with
  | .idle | .stopped => none
  | .waiting => some (max t.clock t.ticker.due, .tick)
  | .calling [] _ => (firstTransit? t.transits).map fun transit => (transit.due, .arrival transit.id)
  | _ => some (t.clock, .proceed)

def occur (t : Timeline) (time : Nat) : Occurrence → Timeline
  | .tick => { t with clock := time, ticker := t.ticker.fire time }.apply (.tick wallClock)
  | .proceed => { t with clock := time }.apply (.proceed wallClock)
  | .arrival id =>
    { t with clock := time, transits := t.transits.filter (·.id != id) }.apply
      (.answered id t.server.answer)

theorem mem_of_firstTransit? {transits : List Transit} {transit : Transit}
    (first : firstTransit? transits = some transit) : transit ∈ transits := by
  induction transits with
  | nil => simp [firstTransit?] at first
  | cons a rest ih =>
    simp only [firstTransit?] at first
    split at first
    · split at first <;> simp_all
    · simp_all

theorem ticker_apply (t : Timeline) (e : Event) : (t.apply e).ticker = t.ticker := rfl

theorem poller_apply (t : Timeline) (e : Event) :
    (t.apply e).poller = (t.poller.step t.plan e).1 := rfl

theorem transits_occur_arrival (t : Timeline) (time : Nat) (id : RequestId) :
    (t.occur time (.arrival id)).transits = t.transits.filter (·.id != id) := by
  simp [occur, apply, Poller.step]

theorem length_filter_lt {transits : List Transit} {transit : Transit} (held : transit ∈ transits) :
    (transits.filter (·.id != transit.id)).length < transits.length :=
  List.length_filter_lt_length_iff_exists.mpr ⟨transit, held, by simp⟩

def left : Stage → Nat × Nat
  | .listing runs _ => (4, runs.length)
  | .calling calls _ => (3, calls.length)
  | .settled _ => (2, 0)
  | .closing => (1, 0)
  | _ => (0, 0)

def remaining (target : Nat) (t : Timeline) : Nat × (Nat × Nat) × Nat :=
  (target + 1 - t.ticker.due, left t.poller.stage, t.transits.length)

theorem left_proceed {t : Timeline} {time : Nat} (due : t.next? = some (time, .proceed)) (now : Int) :
    Prod.Lex (· < ·) (· < ·) (left (t.poller.proceed t.plan now).1.stage) (left t.poller.stage) := by
  cases stage : t.poller.stage with
  | idle | stopped | waiting => simp [next?, stage] at due
  | listing runs calls =>
    cases runs with
    | nil =>
      simp only [Poller.proceed, stage]
      exact Prod.Lex.left _ _ (by decide)
    | cons run runs =>
      simp only [Poller.proceed, stage]
      exact Prod.Lex.right _ (Nat.lt_succ_self runs.length)
  | calling calls ids =>
    cases calls with
    | nil => simp [next?, stage] at due
    | cons call calls =>
      simp only [Poller.proceed, Poller.send, stage]
      exact Prod.Lex.right _ (Nat.lt_succ_self calls.length)
  | settled ids =>
    simp only [Poller.proceed, Poller.forget, stage]
    exact Prod.Lex.left _ _ (by decide)
  | closing =>
    simp only [Poller.proceed, Poller.continueAt, Poller.halt, stage]
    split <;> exact Prod.Lex.left _ _ (by decide)

theorem left_settle (p : Poller) (id : RequestId) (answer : Answer) :
    left (p.settle id answer).stage = left p.stage ∨
      Prod.Lex (· < ·) (· < ·) (left (p.settle id answer).stage) (left p.stage) := by
  cases stage : p.stage with
  | idle | waiting | listing runs calls | settled ids | closing | stopped =>
    simp only [Poller.settle, stage, true_or]
  | calling calls ids =>
    simp only [Poller.settle, stage]
    split
    · split
      · exact .inr (Prod.Lex.left _ _ (by decide))
      · exact .inl rfl
    · rw [stage]
      exact .inl rfl

theorem remaining_occur {t : Timeline} {target time : Nat} {what : Occurrence}
    (due : t.next? = some (time, what)) (inTime : time ≤ target) :
    Prod.Lex (· < ·) (Prod.Lex (Prod.Lex (· < ·) (· < ·)) (· < ·))
      ((t.occur time what).remaining target) (t.remaining target) := by
  cases what with
  | tick =>
    have notPast : t.ticker.due ≤ time := by
      unfold next? at due
      split at due <;> simp at due
      omega
    have later := t.ticker.due_lt_due_fire time
    apply Prod.Lex.left
    simp only [occur, ticker_apply]
    omega
  | proceed => exact Prod.Lex.right _ (Prod.Lex.left _ _ (left_proceed due wallClock))
  | arrival id =>
    have fewer : (t.occur time (.arrival id)).transits.length < t.transits.length := by
      unfold next? at due
      split at due <;> simp at due
      obtain ⟨transit, first, rfl, rfl⟩ := due
      rw [transits_occur_arrival]
      exact length_filter_lt (mem_of_firstTransit? first)
    apply Prod.Lex.right
    rcases left_settle t.poller id t.server.answer with same | less
    · simp only [occur, poller_apply, Poller.step]
      rw [same]
      exact Prod.Lex.right _ fewer
    · exact Prod.Lex.left _ _ less

def advance (target : Nat) (untilStopped : Bool) (t : Timeline) : Timeline :=
  if untilStopped && t.poller.status == .stopped then t
  else
    match due : t.next? with
    | some (time, what) =>
      if inTime : time ≤ target then
        have := remaining_occur due inTime
        advance target untilStopped (t.occur time what)
      else { t with clock := target }
    | none => { t with clock := target }
termination_by t.remaining target
decreasing_by assumption

/-- Waits up to `ms` milliseconds until the poller stops, and tells whether it did. The wait itself
ends first, so that a stop at its very end is not seen. -/
def waitStopped (ms : Nat) (t : Timeline) : Bool × Timeline :=
  let target := t.clock + ms
  let after := t.advance target true
  let inTime := t.poller.status == .stopped || after.clock < target
  (after.poller.status == .stopped && inTime, after)

end Timeline

end RunBoard.Poll
