import Mathlib.Data.List.DropRight
import RunBoard.Proofs.Entities.Log
import RunBoard.Proofs.Entities.Parts

namespace RunBoard

namespace Action

def experiments? : Action → Option (List Experiment)
  | ⟨_, _, .pending⟩ | ⟨_, _, .rejected _⟩ => none
  | ⟨_, .listExperiments, .fulfilled experiments⟩ => some experiments
  | _ => none

def experiment? : Action → Option Experiment
  | ⟨_, _, .pending⟩ | ⟨_, _, .rejected _⟩ => none
  | ⟨_, .getExperiment _, .fulfilled e⟩ => some e
  | _ => none

end Action

def lastListed (log : List Action) : Option (List Experiment) :=
  (log.filterMap Action.experiments?).getLast?

/-- The answers after the last list of experiments, all of them when there is none. -/
def answersSince (log : List Action) : List Experiment :=
  (log.rtakeWhile (·.experiments?.isNone)).filterMap Action.experiment?

/-- What a log says of an experiment since the last list: its last entry there, then the answers. -/
def accounts (id : String) (log : List Action) : List Experiment :=
  ((lastListed log).bind fun listed => (listed.filter (·.id == id)).getLast?).toList ++
    (answersSince log).filter (·.id == id)

theorem accounts_snoc (id : String) (log : List Action) (a : Action) :
    accounts id (log ++ [a]) =
      match a.experiments? with
      | some listed => (listed.filter (·.id == id)).getLast?.toList
      | none => accounts id log ++ a.experiment?.toList.filter (·.id == id) := by
  cases listed : a.experiments? with
  | some experiments => simp [accounts, lastListed, answersSince, listed]
  | none => cases answer : a.experiment? <;> simp [accounts, lastListed, answersSince, listed, answer]

theorem accounts_ne_nil_iff (id : String) (log : List Action) :
    accounts id log ≠ [] ↔
      (∃ listed, lastListed log = some listed ∧ ∃ e ∈ listed, e.id = id) ∨
        ∃ e ∈ answersSince log, e.id = id := by
  rw [accounts, ne_eq, List.append_eq_nil_iff, not_and_or]
  apply or_congr
  · cases lastListed log <;> simp
  · simp

namespace Experiment

instance : Std.Associative reconcile where
  assoc known first last := by simp only [reconcile, Option.or_assoc]

/-- What accounts of an experiment add up to: the name is that of the last, and every other field the
last that any of them carried. -/
def ofAccounts? (id : String) (accounts : List Experiment) : Option Experiment :=
  accounts.getLast?.map fun last => {
    id
    name := last.name
    artifactLocation := (accounts.filterMap (·.artifactLocation)).getLast?
    stage := (accounts.filterMap (·.stage)).getLast?
    creationTime := (accounts.filterMap (·.creationTime)).getLast?
    lastUpdateTime := (accounts.filterMap (·.lastUpdateTime)).getLast?
    tags := none }

theorem ofAccounts?_snoc (accounts : List Experiment) (e : Experiment) :
    ofAccounts? e.id (accounts ++ [e]) =
      some (match ofAccounts? e.id accounts with
        | some known => known.reconcile e
        | none => e.withoutTags) := by
  cases last : accounts.getLast? with
  | none =>
    obtain rfl := List.getLast?_eq_none_iff.mp last
    simp only [ofAccounts?, List.getLast?_concat, List.getLast?_nil, Option.map_some, Option.map_none,
      getLast?_filterMap_snoc, List.filterMap_nil, Option.or_none, withoutTags]
  | some known =>
    simp only [ofAccounts?, List.getLast?_concat, last, Option.map_some, getLast?_filterMap_snoc,
      reconcile]

theorem ofAccounts?_entry (id : String) (listed : List Experiment) :
    ofAccounts? id (listed.filter (·.id == id)).getLast?.toList =
      (listed.filter (·.id == id)).getLast?.map withoutTags := by
  cases entry : (listed.filter (·.id == id)).getLast? with
  | none => rfl
  | some e =>
    have own : e.id = id := by
      simpa using (List.mem_filter.mp (List.mem_of_getLast? entry)).2
    subst own
    exact ofAccounts?_snoc [] e

end Experiment

namespace Entities

theorem getElem?_replaceExperiments (s : Entities) (experiments : List Experiment) (id : String) :
    (s.replaceExperiments experiments).experiments[id]? =
      (experiments.filter (·.id == id)).getLast?.map Experiment.withoutTags := by
  rw [replaceExperiments, Table.getElem?_ofPairs, List.filter_map, List.map_map, List.getLast?_map]
  rfl

theorem getElem?_foldExperiment (s : Entities) (e : Experiment) (id : String) :
    (s.foldExperiment e).experiments[id]? =
      if e.id = id then
        some (match s.experiments[e.id]? with
          | some known => known.reconcile e
          | none => e.withoutTags)
      else s.experiments[id]? := by
  rw [foldExperiment, Std.ExtTreeMap.getElem?_insert]
  exact if_congr Std.compare_eq_iff_eq rfl rfl

theorem Change.experiments {s next : Entities} {a : Action} (change : s.Change a next) :
    next.experiments = match a.experiments?, a.experiment? with
      | some experiments, _ => (s.replaceExperiments experiments).experiments
      | none, some e => (s.foldExperiment e).experiments
      | none, none => s.experiments := by
  cases change with
  | searchRuns id page | loadMoreRuns id page =>
    simp only [replacePage, appendPage, foldl_putRun]
    rfl
  | _ => rfl

theorem getElem?_experiments_after (log : List Action) (id : String) :
    (after log).experiments[id]? = Experiment.ofAccounts? id (accounts id log) := by
  apply replay_induction
    (P := fun log s => s.experiments[id]? = Experiment.ofAccounts? id (accounts id log))
  · exact Std.ExtTreeMap.getElem?_empty
  · intro log a s held
    rw [(s.change_step a).experiments, accounts_snoc]
    cases brought : a.experiments? with
    | some experiments =>
      exact (getElem?_replaceExperiments s experiments id).trans
        (Experiment.ofAccounts?_entry id experiments).symm
    | none =>
      cases answer : a.experiment? with
      | none => simpa using held
      | some e =>
        simp only [getElem?_foldExperiment]
        by_cases own : e.id = id
        · subst own
          simp [held, Experiment.ofAccounts?_snoc]
        · simp [own, held]

/-- After every log, an experiment is known exactly when the last list has it or a later answer is of
it, and it is what the accounts since then add up to. Answers may be added up before they are folded
in. -/
theorem replay_experiments :
    (∀ (log : List Action) (id : String),
      ((after log).experiments[id]?.isSome = true ↔
        (∃ listed, lastListed log = some listed ∧ ∃ e ∈ listed, e.id = id) ∨
          ∃ e ∈ answersSince log, e.id = id) ∧
      (after log).experiments[id]? = (accounts id log).getLast?.map fun last => {
        id
        name := last.name
        artifactLocation := ((accounts id log).filterMap (·.artifactLocation)).getLast?
        stage := ((accounts id log).filterMap (·.stage)).getLast?
        creationTime := ((accounts id log).filterMap (·.creationTime)).getLast?
        lastUpdateTime := ((accounts id log).filterMap (·.lastUpdateTime)).getLast?
        tags := none }) ∧
    (∀ known first last : Experiment,
      (known.reconcile first).reconcile last = known.reconcile (first.reconcile last)) ∧
    ∀ (known first : Experiment) (rest : List Experiment),
      rest.foldl .reconcile (known.reconcile first) = known.reconcile (rest.foldl .reconcile first) := by
  refine ⟨fun log id => ⟨?_, getElem?_experiments_after log id⟩, Std.Associative.assoc, ?_⟩
  · rw [getElem?_experiments_after, ← accounts_ne_nil_iff]
    simp [Experiment.ofAccounts?]
  · intro known first rest
    exact List.foldl_assoc

end Entities

end RunBoard
