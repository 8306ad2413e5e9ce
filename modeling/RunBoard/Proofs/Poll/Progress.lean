import Mathlib.Data.Nat.Init
import RunBoard.Proofs.Poll.Rounds

namespace RunBoard

theorem Traffic.flights_settle (t : Traffic) (id : RequestId) (answer : Answer) :
    (t.settle id answer).flights = t.flights.filter (·.id != id) := by
  unfold settle
  split
  · rename_i nothing
    symm
    rw [List.filter_eq_self]
    intro flight member
    simpa using List.find?_eq_none.mp nothing flight member
  · rfl

namespace Poll

abbrev Course := Nat → Event

namespace Course

def segment (course : Course) (start count : Nat) : List Event :=
  (List.range' start count).map course

def Turn (course : Course) (n : Nat) : Prop := ∃ now, course n = .proceed now

def Answers (course : Course) (id : RequestId) (n : Nat) : Prop :=
  ∃ answer, course n = .answered id answer

theorem segment_cons (course : Course) (start count : Nat) :
    course.segment start (count + 1) = course start :: course.segment (start + 1) count := by
  rw [segment, List.range'_succ, List.map_cons, segment]

theorem segment_snoc (course : Course) (start count : Nat) :
    course.segment start (count + 1) = course.segment start count ++ [course (start + count)] := by
  rw [segment, List.range'_1_concat, List.map_append, segment]
  rfl

end Course

theorem exists_first_event {P event : Nat → Prop} {n later : Nat} (start : P n) (beyond : n ≤ later)
    (occurs : event later) (kept : ∀ k, P k → ¬event k → P (k + 1)) :
    ∃ k, n ≤ k ∧ P k ∧ event k := by
  by_contra never
  push Not at never
  have always : ∀ k, n ≤ k → P k := by
    intro k after
    induction k, after using Nat.le_induction with
    | base => exact start
    | succ k after ih => exact kept k ih (never k after ih)
  exact never later beyond (always later beyond) occurs

namespace Stage

def hasTurns : Stage → Bool
  | listing _ _ | calling (_ :: _) _ => true
  | _ => false

end Stage

namespace Poller

variable {plan : Plan} {p : Poller} {e : Event}

theorem inRound_step (inside : p.stage.inRound = true) (unsettled : p.stage.hasSettled = false)
    (untold : e.endsPolling = false) : (p.step plan e).1.stage.inRound = true := by
  have move := p.step_move plan e
  generalize (p.step plan e).1.stage = next at move ⊢
  generalize (p.step plan e).2 = sent at move
  cases move with
  | stays => exact inside
  | told _ ends =>
    rw [untold] at ends
    contradiction
  | dry _ _ between =>
    rcases between with here | here
    · rw [here] at inside
      contradiction
    · rw [here] at unsettled
      contradiction
  | begins | lists | listed | sends | settles | forgets => rfl
  | ends _ here =>
    rw [here] at unsettled
    contradiction

theorem stage_step_of_hasTurns (turns : p.stage.hasTurns = true) (untold : e.endsPolling = false)
    (other : ¬∃ now, e = .proceed now) : (p.step plan e).1.stage = p.stage := by
  cases e with
  | focus | blur | others => rfl
  | stop | closed => contradiction
  | proceed now => exact absurd ⟨now, rfl⟩ other
  | tick now =>
    rw [step, tick, if_neg]
    rintro ⟨here, -⟩
    rw [here] at turns
    contradiction
  | answered id answer =>
    simp only [step, settle]
    split
    · rename_i left ids here
      rw [here] at turns
      cases left with
      | nil => contradiction
      | cons call left =>
        split
        · rw [here]
          rfl
        · rfl
    · rfl

theorem step_quiet (plan : Plan) {left : List Call} {ids : List RequestId}
    (here : p.stage = .calling left ids) (untold : e.endsPolling = false)
    (unsent : (∃ now, e = .proceed now) → left = []) (unasked : ∀ id answer, e = .answered id answer → id ∉ ids) :
    (p.step plan e).1.stage = .calling left ids ∧
      (p.step plan e).1.traffic.flights = p.traffic.flights := by
  cases e with
  | focus | blur | others => exact ⟨here, rfl⟩
  | stop | closed => contradiction
  | tick now =>
    have same : p.tick plan now = p := by
      rw [tick, if_neg]
      rintro ⟨waiting, -⟩
      rw [here] at waiting
      contradiction
    rw [step, same]
    exact ⟨here, rfl⟩
  | proceed now =>
    obtain rfl := unsent ⟨now, rfl⟩
    rw [step, proceed, here]
    exact ⟨here, rfl⟩
  | answered id answer =>
    have other := unasked id answer rfl
    rw [step, settle, here]
    simp only [List.contains_iff_mem, if_neg other]
    exact ⟨here, trivial⟩

def along (p : Poller) (plan : Plan) (course : Course) : Nat → Poller
  | 0 => p
  | n + 1 => ((p.along plan course n).step plan (course n)).1

theorem after_segment (p : Poller) (course : Course) (start count : Nat) :
    (p.along plan course start).after plan (course.segment start count) =
      p.along plan course (start + count) := by
  induction count with
  | zero => rfl
  | succ count ih =>
    rw [Course.segment_snoc, after_append, ih]
    rfl

theorem along_of_waiting (plan : Plan) (p : Poller) (course : Course) {n : Nat}
    (waiting : (p.along plan course n).stage = .waiting) (turns : ∀ k, n ≤ k → course.Turn k) :
    ∀ k, n ≤ k → (p.along plan course k).stage = .waiting := by
  intro k after
  induction k, after using Nat.le_induction with
  | base => exact waiting
  | succ k after ih =>
    obtain ⟨now, turn⟩ := turns k after
    rw [along, turn, step, proceed, ih]
    exact ih

/-- A course that leaves a poller to its rounds. It is told no end, it gets its turns again and again,
and each call is answered after it was made. -/
structure Fair (plan : Plan) (p : Poller) (course : Course) : Prop where
  untold : ∀ n, (course n).endsPolling = false
  turns : ∀ n, ∃ later, n ≤ later ∧ course.Turn later
  answers : ∀ n, ∀ call ∈ ((p.along plan course n).step plan (course n)).2,
    ∃ later, n < later ∧ course.Answers call.id later

structure Calls (plan : Plan) (p : Poller) (course : Course) (n : Nat) (left : List Call)
    (ids : List RequestId) : Prop where
  here : (p.along plan course n).stage = .calling left ids
  answered : ∀ flight ∈ (p.along plan course n).traffic.flights, flight.id ∈ ids →
    ∃ later, n ≤ later ∧ course.Answers flight.id later
  undone : left ≠ [] ∨ ∃ flight ∈ (p.along plan course n).traffic.flights, flight.id ∈ ids

variable {course : Course} {n : Nat} {left : List Call} {ids : List RequestId}

namespace Calls

theorem answered_later (calls : Calls plan p course n left ids) {flight : Flight}
    (flies : flight ∈ (p.along plan course n).traffic.flights) (own : flight.id ∈ ids)
    (other : ¬course.Answers flight.id n) :
    ∃ later, n + 1 ≤ later ∧ course.Answers flight.id later := by
  obtain ⟨later, beyond, comes⟩ := calls.answered flight flies own
  refine ⟨later, Nat.lt_of_le_of_ne beyond ?_, comes⟩
  rintro rfl
  exact other comes

theorem quiet (calls : Calls plan p course n left ids) (fair : Fair plan p course)
    (unsent : course.Turn n → left = []) (unasked : ∀ id ∈ ids, ¬course.Answers id n) :
    Calls plan p course (n + 1) left ids ∧
      (p.along plan course (n + 1)).traffic.flights = (p.along plan course n).traffic.flights := by
  obtain ⟨stage, flights⟩ := step_quiet plan calls.here (fair.untold n) unsent
    fun id answer asked own => unasked id own ⟨answer, asked⟩
  have flights : (p.along plan course (n + 1)).traffic.flights =
      (p.along plan course n).traffic.flights := flights
  refine ⟨⟨stage, ?_, by rw [flights]; exact calls.undone⟩, flights⟩
  intro flight flies own
  rw [flights] at flies
  exact calls.answered_later flies own (unasked _ own)

theorem send {call : Call} (calls : Calls plan p course n (call :: left) ids)
    (fair : Fair plan p course) (turn : course.Turn n) :
    ∃ id, Calls plan p course (n + 1) left (ids ++ [id]) := by
  obtain ⟨now, turn⟩ := turn
  have sends : (p.along plan course n).step plan (course n) =
      (p.along plan course n).send plan call left ids := by
    rw [turn, step, proceed, calls.here]
  have sent : p.along plan course (n + 1) =
      ((p.along plan course n).send plan call left ids).1 := congrArg Prod.fst sends
  have asked := fair.answers n
  rw [sends] at asked
  refine ⟨plan.freshId (p.along plan course n).issued, by rw [sent]; rfl, ?_, .inr ?_⟩
  · intro flight flies own
    rw [sent] at flies
    by_cases new : flight.id = plan.freshId (p.along plan course n).issued
    · rw [new]
      exact asked _ List.mem_cons_self
    · have old : flight.id ∈ ids := (List.mem_append.mp own).resolve_right (by simpa using new)
      refine calls.answered_later ((List.mem_append.mp flies).resolve_right ?_) old ?_
      · rintro member
        rw [List.mem_singleton.mp member] at new
        exact new rfl
      · rintro ⟨answer, asked⟩
        rw [turn] at asked
        contradiction
  · rw [sent]
    exact ⟨_, List.mem_append_right _ List.mem_cons_self,
      List.mem_append_right _ List.mem_cons_self⟩

theorem answer (calls : Calls plan p course n left ids) {id : RequestId} (own : id ∈ ids)
    (asked : course.Answers id n) :
    (left = [] ∧ (p.along plan course (n + 1)).stage = .settled ids ∧
        ∀ flight ∈ (p.along plan course n).traffic.flights, flight.id ∈ ids → flight.id = id) ∨
      Calls plan p course (n + 1) left ids ∧ (p.along plan course (n + 1)).traffic.flights =
        (p.along plan course n).traffic.flights.filter (·.id != id) := by
  obtain ⟨answer, asked⟩ := asked
  have next : p.along plan course (n + 1) = (p.along plan course n).settle id answer := by
    rw [along, asked]
    rfl
  rw [settle, calls.here] at next
  simp only [List.contains_iff_mem, if_pos own, Traffic.flights_settle] at next
  split at next
  · rename_i done
    rw [Bool.and_eq_true, List.isEmpty_iff] at done
    refine .inl ⟨done.1, by rw [next], fun flight flies member => ?_⟩
    by_contra other
    have landed := List.all_eq_true.mp done.2 flight
      (List.mem_filter.mpr ⟨flies, by simpa using other⟩)
    simp [member] at landed
  · rename_i undone
    have flights : (p.along plan course (n + 1)).traffic.flights =
        (p.along plan course n).traffic.flights.filter (·.id != id) := by
      rw [next]
      exact Traffic.flights_settle _ id answer
    refine .inr ⟨⟨by rw [next], ?_, ?_⟩, flights⟩
    · intro flight flies kept
      rw [flights, List.mem_filter] at flies
      refine calls.answered_later flies.1 kept ?_
      rintro ⟨other, same⟩
      rw [asked] at same
      cases same
      simp at flies
    · by_contra finished
      rw [flights] at finished
      push Not at finished
      obtain ⟨rfl, landed⟩ := finished
      refine undone ?_
      simpa only [List.isEmpty_nil, Bool.true_and, List.all_eq_true, Bool.not_eq_true',
        List.contains_eq_mem, decide_eq_false_iff_not] using landed

theorem goes_on (calls : Calls plan p course n left ids) (fair : Fair plan p course)
    (unsent : course.Turn n → left = []) :
    (left = [] ∧ (p.along plan course (n + 1)).stage = .settled ids ∧
        ∀ flight ∈ (p.along plan course n).traffic.flights, flight.id ∈ ids →
          course.Answers flight.id n) ∨
      Calls plan p course (n + 1) left ids ∧
        (p.along plan course (n + 1)).traffic.flights.length ≤
          (p.along plan course n).traffic.flights.length ∧
        ∀ flight ∈ (p.along plan course n).traffic.flights, ¬course.Answers flight.id n →
          flight ∈ (p.along plan course (n + 1)).traffic.flights := by
  by_cases asked : ∃ id ∈ ids, course.Answers id n
  · obtain ⟨id, own, asked⟩ := asked
    rcases calls.answer own asked with ⟨none, settled, last⟩ | ⟨calls, flights⟩
    · refine .inl ⟨none, settled, fun flight flies member => ?_⟩
      rw [last flight flies member]
      exact asked
    · rw [flights]
      refine .inr ⟨calls, List.length_filter_le _ _, fun flight flies other => ?_⟩
      refine List.mem_filter.mpr ⟨flies, bne_iff_ne.mpr ?_⟩
      rintro rfl
      exact other asked
  · push Not at asked
    obtain ⟨calls, flights⟩ := calls.quiet fair unsent asked
    rw [flights]
    exact .inr ⟨calls, Nat.le_refl _, fun flight flies _ => flies⟩

theorem exists_all_made (calls : Calls plan p course n left ids) (fair : Fair plan p course) :
    ∃ later ids, n ≤ later ∧ Calls plan p course later [] ids := by
  induction left generalizing n ids with
  | nil => exact ⟨n, ids, Nat.le_refl n, calls⟩
  | cons call left ih =>
    have kept : ∀ k, Calls plan p course k (call :: left) ids → ¬course.Turn k →
        Calls plan p course (k + 1) (call :: left) ids := by
      intro k calls other
      rcases calls.goes_on fair (absurd · other) with ⟨none, -⟩ | ⟨calls, -⟩
      · contradiction
      · exact calls
    obtain ⟨next, beyond, comes⟩ := fair.turns n
    obtain ⟨k, after, calls, turn⟩ := exists_first_event calls beyond comes kept
    obtain ⟨id, calls⟩ := calls.send fair turn
    obtain ⟨later, ids, following, calls⟩ := ih calls
    exact ⟨later, ids, by omega, calls⟩

theorem exists_settled (calls : Calls plan p course n [] ids) (fair : Fair plan p course) :
    ∃ later, n ≤ later ∧ (p.along plan course later).stage = .settled ids := by
  -- By the number of calls on their way, which the answer to one of them lowers.
  induction counted : (p.along plan course n).traffic.flights.length using Nat.strongRecOn
    generalizing n with
  | ind size ih =>
    obtain ⟨flight, flies, own⟩ := calls.undone.resolve_left (· rfl)
    obtain ⟨next, beyond, comes⟩ := calls.answered flight flies own
    have kept : ∀ k, (Calls plan p course k [] ids ∧
          flight ∈ (p.along plan course k).traffic.flights ∧
          (p.along plan course k).traffic.flights.length ≤ size) → ¬course.Answers flight.id k →
        Calls plan p course (k + 1) [] ids ∧
          flight ∈ (p.along plan course (k + 1)).traffic.flights ∧
          (p.along plan course (k + 1)).traffic.flights.length ≤ size := by
      rintro k ⟨calls, flies, bounded⟩ other
      rcases calls.goes_on fair (fun _ => rfl) with ⟨-, -, last⟩ | ⟨calls, fewer, stays⟩
      · exact absurd (last flight flies own) other
      · exact ⟨calls, stays flight flies other, Nat.le_trans fewer bounded⟩
    obtain ⟨k, after, ⟨calls, flies, bounded⟩, asked⟩ :=
      exists_first_event ⟨calls, flies, Nat.le_of_eq counted⟩ beyond comes kept
    rcases calls.answer own asked with ⟨-, settled, -⟩ | ⟨calls, flights⟩
    · exact ⟨k + 1, by omega, settled⟩
    · have less : ((p.along plan course k).traffic.flights.filter (·.id != flight.id)).length <
          (p.along plan course k).traffic.flights.length :=
        List.length_filter_lt_length_iff_exists.mpr ⟨flight, flies, by simp⟩
      rw [← flights] at less
      obtain ⟨later, following, settled⟩ := ih _ (Nat.lt_of_lt_of_le less bounded) calls rfl
      exact ⟨later, by omega, settled⟩

end Calls

theorem exists_turn (fair : Fair plan p course)
    (turns : (p.along plan course n).stage.hasTurns = true) :
    ∃ k, n ≤ k ∧ (p.along plan course k).stage = (p.along plan course n).stage ∧ course.Turn k := by
  have kept : ∀ k, (p.along plan course k).stage = (p.along plan course n).stage →
      ¬course.Turn k →
      (p.along plan course (k + 1)).stage = (p.along plan course n).stage := by
    intro k same other
    rw [← same] at turns ⊢
    exact stage_step_of_hasTurns turns (fair.untold k) other
  obtain ⟨next, beyond, comes⟩ := fair.turns n
  exact exists_first_event rfl beyond comes kept

theorem exists_calls (fair : Fair plan p course) {left : List String} {calls : List Call}
    (here : (p.along plan course n).stage = .listing left calls) (some : left ≠ [] ∨ calls ≠ []) :
    ∃ later calls, n ≤ later ∧ Calls plan p course later calls [] := by
  induction left generalizing n calls with
  | nil =>
    obtain ⟨k, after, same, now, turn⟩ := exists_turn fair (by rw [here]; rfl)
    rw [here] at same
    refine ⟨k + 1, calls, by omega, ?_, ?_, .inl (some.resolve_left (· rfl))⟩
    · rw [along, turn, step, proceed, same]
    · intro flight _ none
      contradiction
  | cons run left ih =>
    obtain ⟨k, after, same, now, turn⟩ := exists_turn fair (by rw [here]; rfl)
    rw [here] at same
    have lists : (p.along plan course (k + 1)).stage =
        .listing left (calls ++ callsOf run ((p.along plan course k).keysOf plan run)) := by
      rw [along, turn, step, proceed, same]
    obtain ⟨later, calls, following, calls⟩ := ih lists (.inr (by simp [callsOf]))
    exact ⟨later, _, by omega, calls⟩

theorem after_tick {now : Int} (begins : course n = .tick now) (count : Nat) :
    (p.along plan course n).after plan (.tick now :: course.segment (n + 1) count) =
      p.along plan course (n + 1 + count) := by
  rw [← begins, ← Course.segment_cons, after_segment]
  congr 1
  omega

end Poller

theorem Round.settled_or_goes_on {plan : Plan} {p : Poller} {course : Course} {n : Nat} {now : Int}
    (fair : Poller.Fair plan p course) (begins : course n = .tick now)
    (first : Round plan (p.along plan course n) now []) (count : Nat) :
    (∃ earlier, Round plan (p.along plan course n) now (course.segment (n + 1) earlier) ∧
        (p.along plan course (n + 1 + earlier)).stage.hasSettled = true) ∨
      Round plan (p.along plan course n) now (course.segment (n + 1) count) := by
  induction count with
  | zero => exact .inr first
  | succ count ih =>
    rcases ih with settled | round
    · exact .inl settled
    have inside := round.inRound
    rw [Poller.after_tick begins] at inside
    cases settled : (p.along plan course (n + 1 + count)).stage.hasSettled with
    | true => exact .inl ⟨count, round, settled⟩
    | false =>
      refine .inr ?_
      rw [Course.segment_snoc]
      refine round.snoc ?_
      rw [Poller.after_tick begins]
      exact Poller.inRound_step inside settled (fair.untold _)

/-- A tick begins a round if the window has focus and some run is active. In a fair course, the round
makes all its calls and is settled. -/
theorem tick_begins_round_that_settles (plan : Plan) (p : Poller) (course : Course)
    (fair : Poller.Fair plan p course) (n : Nat) (now : Int) (begins : course n = .tick now)
    (waiting : (p.along plan course n).stage = .waiting)
    (focused : (p.along plan course n).focused = true)
    (active : (p.along plan course n).active plan now ≠ []) :
    Round plan (p.along plan course n) now [] ∧
      ∃ count, Round plan (p.along plan course n) now (course.segment (n + 1) count) ∧
        (p.along plan course (n + 1 + count)).stage.hasSettled = true := by
  have first := Round.first waiting focused active
  have listing : (p.along plan course (n + 1)).stage =
      .listing ((p.along plan course n).active plan now) [] := by
    rw [Poller.along, begins]
    exact Poller.stage_tick waiting focused active
  obtain ⟨start, left, afterTick, calls⟩ := Poller.exists_calls fair listing (.inl active)
  obtain ⟨made, ids, afterStart, calls⟩ := calls.exists_all_made fair
  obtain ⟨later, afterCalls, settled⟩ := calls.exists_settled fair
  obtain ⟨count, rfl⟩ := Nat.exists_eq_add_of_le
    (Nat.le_trans afterTick (Nat.le_trans afterStart afterCalls))
  refine ⟨first, ?_⟩
  rcases first.settled_or_goes_on fair begins count with earlier | round
  · exact earlier
  · exact ⟨count, round, by rw [settled]; rfl⟩

end Poll

end RunBoard
