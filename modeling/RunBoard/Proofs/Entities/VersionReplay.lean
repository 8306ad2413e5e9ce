import RunBoard.Proofs.Entities.RunReplay
import RunBoard.Proofs.Entities.TreeReplay

namespace RunBoard

namespace Action

def versions? : Action → Option (List ModelVersion)
  | ⟨_, _, .pending⟩ | ⟨_, _, .rejected _⟩ => none
  | ⟨_, .searchModelVersions, .fulfilled versions⟩ => some versions
  | _ => none

/-- An answer with the run, or a listing of its artifacts. -/
def tellsRoot (uuid : String) (a : Action) : Bool :=
  a.runs.any (·.info.uuid == uuid) || (a.listing? uuid).isSome

theorem not_tellsRoot_iff (uuid : String) (a : Action) :
    ¬a.tellsRoot uuid = true ↔ occurrences uuid [a] = [] ∧ a.listing? uuid = none := by
  rw [occurrences, List.flatMap_singleton, List.filter_eq_nil_iff]
  simp [tellsRoot]

theorem listing?_eq_some {uuid : String} {a : Action} {listing : ArtifactListing}
    (listed : a.listing? uuid = some listing) :
    ∃ id path, a = ⟨id, .listArtifacts uuid path, .fulfilled listing⟩ := by
  obtain ⟨id, op, phase⟩ := a
  cases phase with
  | pending | rejected e => contradiction
  | fulfilled payload =>
    cases op with
    | listArtifacts run path =>
      rw [listing?] at listed
      split at listed
      · rename_i own
        obtain rfl := Option.some.inj listed
        exact ⟨id, path, by rw [own]⟩
      · contradiction
    | _ => contradiction

theorem directory?_eq_none {uuid : String} {a : Action} (unlisted : a.listing? uuid = none) :
    a.directory? uuid = none := by
  obtain ⟨id, op, phase⟩ := a
  cases phase with
  | pending | rejected e => rfl
  | fulfilled payload =>
    cases op with
    | listArtifacts run path =>
      rw [directory?]
      rw [listing?] at unlisted
      split at unlisted
      · contradiction
      · rename_i other
        exact if_neg other
    | _ => rfl

end Action

/-- The last answer with model versions in a log. -/
def lastVersions (log : List Action) : Option (List ModelVersion) :=
  (log.filterMap Action.versions?).getLast?

theorem lastVersions_snoc (log : List Action) (a : Action) :
    lastVersions (log ++ [a]) = a.versions?.or (lastVersions log) :=
  getLast?_filterMap_snoc _ _ _

namespace Entities

theorem Change.modelVersions {s next : Entities} {a : Action} (change : s.Change a next) :
    next.modelVersions = match a.versions? with
      | some versions => Table.group (·.runId) versions
      | none => s.modelVersions := by
  cases change with
  | searchRuns id page | loadMoreRuns id page =>
    simp only [replacePage, appendPage, foldl_putRun]
    rfl
  | _ => rfl

theorem modelVersions_after (log : List Action) :
    (after log).modelVersions = Table.group (·.runId) ((lastVersions log).getD []) := by
  apply replay_induction
    (P := fun log s => s.modelVersions = Table.group (·.runId) ((lastVersions log).getD []))
  · rfl
  · intro log a s held
    rw [(s.change_step a).modelVersions, lastVersions_snoc]
    cases a.versions? with
    | some versions => rfl
    | none => exact held

theorem versionsOf_after (log : List Action) (run : String) :
    (after log).versionsOf run = ((lastVersions log).getD []).filter (·.runId == run) := by
  rw [versionsOf, modelVersions_after, Table.getD_group]

section Roots

variable {uuid : String} {s t : Entities}

theorem treeOf_step_of_unlisted {a : Action} (unlisted : a.listing? uuid = none) (s : Entities) :
    (s.step a).treeOf uuid = s.treeOf uuid := by
  rcases (s.change_step a).treeOf uuid with same | ⟨path, files, listed, -⟩
  · exact same
  · rw [Action.directory?_eq_none unlisted] at listed
    contradiction

theorem treeOf_step_congr (same : s.treeOf uuid = t.treeOf uuid) (a : Action) :
    (s.step a).treeOf uuid = (t.step a).treeOf uuid := by
  cases listed : a.listing? uuid with
  | none => rw [treeOf_step_of_unlisted listed, treeOf_step_of_unlisted listed, same]
  | some listing =>
    obtain ⟨id, path, rfl⟩ := Action.listing?_eq_some listed
    rw [treeOf_step_listArtifacts, treeOf_step_listArtifacts, same]

theorem rootsNamed_congr (same : s.treeOf uuid = t.treeOf uuid) (a : Action) :
    rootsNamed uuid s a = rootsNamed uuid t a := by
  cases listed : a.listing? uuid with
  | none => simp only [rootsNamed, listed, Option.bind_none, ite_self]
  | some listing =>
    obtain ⟨id, path, rfl⟩ := Action.listing?_eq_some listed
    rw [rootsNamed, rootsNamed, outcome_listArtifacts, outcome_listArtifacts, same]

theorem rootsNamed_of_untold {a : Action} (untold : ¬a.tellsRoot uuid = true) (s : Entities) :
    rootsNamed uuid s a = [] := by
  obtain ⟨missing, unlisted⟩ := (Action.not_tellsRoot_iff uuid a).mp untold
  rw [rootsNamed, missing, unlisted, Option.bind_none, ite_self]
  rfl

theorem rootsOver_filter (same : s.treeOf uuid = t.treeOf uuid) (log : List Action) :
    rootsOver uuid s log = rootsOver uuid t (log.filter (·.tellsRoot uuid)) := by
  induction log generalizing s t with
  | nil => rfl
  | cons a rest ih =>
    by_cases tells : a.tellsRoot uuid = true
    · rw [List.filter_cons_of_pos tells, rootsOver, rootsOver, rootsNamed_congr same,
        ih (treeOf_step_congr same a)]
    · have unlisted := ((Action.not_tellsRoot_iff uuid a).mp tells).2
      have kept : (s.step a).treeOf uuid = t.treeOf uuid := by
        rw [treeOf_step_of_unlisted unlisted, same]
      rw [List.filter_cons_of_neg tells, rootsOver, rootsNamed_of_untold tells, List.nil_append,
        ih kept]

end Roots

theorem getElem?_artifactRoots_after (log : List Action) (run : String) :
    (after log).artifactRoots[run]? =
      (rootsOver run .empty (log.filter (·.tellsRoot run))).getLast? := by
  rw [(runReplay_replay log).root, rootsOver_filter rfl]

theorem versionsAt_after (log : List Action) (run path : String) :
    (after log).versionsAt run path =
      match (after log).artifactRoots[run]? with
      | some root => (((lastVersions log).getD []).filter (·.runId == run)).filter fun version =>
          Path.relative? version.source root == some (Path.normalize path)
      | none => [] := by
  rw [versionsAt, versionsOf_after]
  rfl

/-- After every log, the versions of a run are those of it in the last answer with model versions, in
its order, and none when there was none. The versions at a path are those of them whose source lies there
below the artifact root on record, which is the last that was named for the run; while there is no root,
there are none. So it does not matter where the answers with versions come between those with the run
and the listings of its artifacts. -/
theorem replay_versions (log : List Action) (run : String) :
    let versions := ((lastVersions log).getD []).filter (·.runId == run)
    (after log).versionsOf run = versions ∧
      (∀ path, (after log).versionsAt run path =
        match (after log).artifactRoots[run]? with
        | some root => versions.filter fun version =>
            Path.relative? version.source root == some (Path.normalize path)
        | none => []) ∧
      (after log).artifactRoots[run]? = (rootsOver run .empty log).getLast? ∧
      ∀ other, lastVersions other = lastVersions log →
        other.filter (·.tellsRoot run) = log.filter (·.tellsRoot run) →
          ∀ path, (after other).versionsAt run path = (after log).versionsAt run path := by
  intro versions
  refine ⟨versionsOf_after log run, versionsAt_after log run, (runReplay_replay log).root run, ?_⟩
  intro other answered told path
  have roots : (after other).artifactRoots[run]? = (after log).artifactRoots[run]? := by
    rw [getElem?_artifactRoots_after, getElem?_artifactRoots_after, told]
  rw [versionsAt_after, versionsAt_after, answered, roots]

theorem replay_versions_before_root :
    let version (name run source : String) : ModelVersion := ⟨name, "1", source, run, none, none⟩
    let model := version "model" "run" "dbfs:/new//artifacts/model/"
    let data := version "data" "run" "dbfs:/old/data"
    let foreign := version "model" "other" "dbfs:/new/artifacts/model"
    let info := (RunInfo.new "run" "0" .running).withArtifactUri "dbfs:/old"
    let answer : Action := .untracked (.getRun "run") (.fulfilled ⟨info, .none⟩)
    let listing : Action :=
      .untracked (.listArtifacts "run" none) (.fulfilled ⟨"dbfs:/new/artifacts", []⟩)
    let versions (payload : List ModelVersion) : Action :=
      .untracked .searchModelVersions (.fulfilled payload)
    let log := [versions [model, model], answer, listing, versions [data, foreign, model]]
    let other := [versions [data, foreign, model], answer, listing]
    (lastVersions other = lastVersions log ∧
      other.filter (·.tellsRoot "run") = log.filter (·.tellsRoot "run")) ∧
      (after log).versionsAt "run" "model" = [model] ∧
      (after other).versionsAt "run" "model" = (after log).versionsAt "run" "model" := by
  intro version model data foreign info answer listing versions log other
  have answered : lastVersions other = lastVersions log := rfl
  have told : other.filter (·.tellsRoot "run") = log.filter (·.tellsRoot "run") := rfl
  refine ⟨⟨answered, told⟩, by decide +kernel, ?_⟩
  exact (replay_versions log "run").2.2.2 other answered told "model"

end Entities

end RunBoard
