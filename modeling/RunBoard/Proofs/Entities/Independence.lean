import Mathlib.Data.List.Pairwise
import RunBoard.Proofs.Entities.Subject

namespace RunBoard

/-- Two metrics of one run are apart, and two tags of one owner; else the owners have to differ. -/
def Subject.Apart : Subject → Subject → Prop
  | metric run key, metric other field => run ≠ other ∨ key ≠ field
  | tag owner key, tag other field => owner ≠ other ∨ key ≠ field
  | one, other => one.owner ≠ other.owner

theorem Subject.Apart.symm {one other : Subject} (apart : one.Apart other) : other.Apart one := by
  cases one <;> cases other
  case metric.metric => exact apart.imp Ne.symm Ne.symm
  case tag.tag => exact apart.imp Ne.symm Ne.symm
  all_goals exact Ne.symm apart

def Action.Independent (a b : Action) : Prop :=
  ∃ one other, a.subject? = some one ∧ b.subject? = some other ∧ one.Apart other

instance : Std.Symm Action.Independent where
  symm _ _ := fun ⟨one, other, aboutA, aboutB, apart⟩ => ⟨other, one, aboutB, aboutA, apart.symm⟩

namespace Entities

/-- Neither of two actions notices whether the other came first. -/
def PassEachOther (a b : Action) : Prop :=
  ∀ s : Entities, (s.step a).step b = (s.step b).step a ∧
    (s.step b).outcome a = s.outcome a ∧ (s.step a).outcome b = s.outcome b

section

variable {owner other : TagOwner} {a b : Action}

theorem LocalTo.outcome_eq {act : Part owner → Except ListingError (Part owner)}
    (updates : LocalTo owner act a) {s next : Entities} (same : next.part owner = s.part owner) :
    next.outcome a = s.outcome a := by
  rw [outcome, outcome, updates, updates, same]
  cases act (s.part owner) <;> rfl

theorem LocalTo.passEachOther_of_ne {act : Part owner → Except ListingError (Part owner)}
    {react : Part other → Except ListingError (Part other)} (first : LocalTo owner act a)
    (last : LocalTo other react b) (apart : owner ≠ other) : PassEachOther a b := by
  intro s
  have partA : (s.step b).part owner = s.part owner := last.part_step apart.symm s
  have partB : (s.step a).part other = s.part other := first.part_step apart s
  refine ⟨?_, first.outcome_eq partA, last.outcome_eq partB⟩
  rw [last.step_eq (s.step a), first.step_eq (s.step b), partA, partB, first.step_eq s,
    last.step_eq s]
  cases act (s.part owner) with
  | error e => cases react (s.part other) <;> rfl
  | ok p =>
    cases react (s.part other) with
    | error e => rfl
    | ok q => exact s.withPart_comm apart p q

theorem LocalTo.passEachOther_of_comm {change recast : Part owner → Part owner}
    (first : LocalTo owner (fun p => .ok (change p)) a)
    (last : LocalTo owner (fun p => .ok (recast p)) b)
    (comm : ∀ p, recast (change p) = change (recast p)) : PassEachOther a b := by
  intro s
  refine ⟨?_, ?_, ?_⟩
  · simp only [first.step_eq, last.step_eq, part_withPart, withPart_withPart, comm]
  · simp only [outcome, first _, Except.map, whole]
  · simp only [outcome, last _, Except.map, whole]

end

theorem putHistory_comm {key field : String} (apart : key ≠ field) (points others : List Metric)
    (p : RunPart) :
    RunPart.putHistory (RunPart.putHistory p key points) field others =
      RunPart.putHistory (RunPart.putHistory p field others) key points := by
  simp only [RunPart.putHistory, Table.write_comm _ apart]

theorem writeTag_comm {owner : TagOwner} {key field : String} (apart : key ≠ field)
    (value other : Option String) (p : Part owner) :
    Part.writeTag field other (Part.writeTag key value p) =
      Part.writeTag key value (Part.writeTag field other p) := by
  cases owner <;> simp only [Part.writeTag, Table.write_comm _ apart]

theorem passEachOther_of_independent {a b : Action} (apart : a.Independent b) :
    PassEachOther a b := by
  obtain ⟨one, other, aboutA, aboutB, apart⟩ := apart
  obtain ⟨act, kindA, localA⟩ := exists_update aboutA
  obtain ⟨react, kindB, localB⟩ := exists_update aboutB
  by_cases owners : one.owner = other.owner
  -- Two subjects of one owner are apart only as two of its metrics or two of its tags.
  · cases kindA <;> cases kindB <;> simp only [Subject.owner] at owners
    case putHistory.putHistory run key points other field others =>
      obtain rfl : run = other := TagOwner.run.inj owners
      have keys : key ≠ field := apart.resolve_left fun differ => differ rfl
      exact localA.passEachOther_of_comm localB fun p => putHistory_comm keys points others p
    case writeTag.writeTag owner key value other field values =>
      subst owners
      have keys : key ≠ field := apart.resolve_left fun differ => differ rfl
      exact localA.passEachOther_of_comm localB fun p => writeTag_comm keys value values p
    all_goals exact absurd owners apart
  · exact localA.passEachOther_of_ne localB owners

theorem replay_perm {log other : List Action} (perm : log.Perm other)
    (apart : log.Pairwise Action.Independent) (s : Entities) : s.replay log = s.replay other := by
  refine perm.foldl_eq' ?_ s
  intro a first b last s
  by_cases same : a = b
  · rw [same]
  · exact (passEachOther_of_independent (apart.forall first last same) s).1

/-- Two independent actions lead to one state in either order and are applied or refused alike; so a
list of actions, each independent of the others, may be taken in any order. -/
theorem independent_actions_commute :
    (∀ a b : Action, a.Independent b → ∀ s : Entities,
      (s.step a).step b = (s.step b).step a ∧
        (s.step b).outcome a = s.outcome a ∧ (s.step a).outcome b = s.outcome b) ∧
    ∀ log other : List Action, log.Perm other → log.Pairwise Action.Independent →
      ∀ s : Entities, s.replay log = s.replay other := by
  constructor
  · intro a b independent
    exact passEachOther_of_independent independent
  · intro log other perm apart
    exact replay_perm perm apart

theorem updates_of_one_run_commute :
    let s : Entities := { Entities.empty with lowest := (∅ : Table (Table Metric)).insert "run" ∅ }
    let loss : Action := .untracked (.getMetricHistory "run" "loss") (.fulfilled [])
    let score : Action := .untracked (.getMetricHistory "run" "score") (.fulfilled [default])
    let tag : Action := .untracked (.setTag (.experiment "run") "stage" "done") (.fulfilled ())
    loss.Independent score ∧
      ((s.step loss).step score = (s.step score).step loss ∧
        (s.step score).outcome loss = s.outcome loss ∧
        (s.step loss).outcome score = s.outcome score) ∧
      [loss, score, tag].Perm [tag, loss, score] ∧
      [loss, score, tag].Pairwise Action.Independent ∧
      s.replay [loss, score, tag] = s.replay [tag, loss, score] := by
  intro s loss score tag
  have histories : loss.Independent score := ⟨_, _, rfl, rfl, .inr (by decide)⟩
  have lossTag : loss.Independent tag := ⟨_, _, rfl, rfl, nofun⟩
  have scoreTag : score.Independent tag := ⟨_, _, rfl, rfl, nofun⟩
  have perm : ([loss, score] ++ [tag]).Perm ([tag] ++ [loss, score]) := List.perm_append_comm
  have apart : [loss, score, tag].Pairwise Action.Independent := by
    simp [histories, lossTag, scoreTag]
  exact ⟨histories, independent_actions_commute.1 loss score histories s, perm, apart,
    independent_actions_commute.2 _ _ perm apart s⟩

end Entities

end RunBoard
