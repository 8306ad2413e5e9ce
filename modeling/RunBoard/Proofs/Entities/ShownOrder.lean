import RunBoard.Proofs.Entities.ExperimentReplay
import RunBoard.Proofs.Entities.RunReplay
import RunBoard.Proofs.List.Sorting
import RunBoard.Proofs.Table.Keyed

namespace RunBoard

namespace Entities

def StartsLater (a b : Option Int64) : Prop := ∃ x, a = some x ∧ ∀ y, b = some y → y < x

theorem StartsLater.trans {a b c : Option Int64} (ab : StartsLater a b) (bc : StartsLater b c) :
    StartsLater a c := by
  obtain ⟨x, rfl, above⟩ := ab
  obtain ⟨y, rfl, below⟩ := bc
  refine ⟨x, rfl, ?_⟩
  intro z started
  exact Int64.lt_trans (below z started) (above y rfl)

theorem StartsLater.not_symm {a b : Option Int64} (ab : StartsLater a b) : ¬StartsLater b a := by
  rintro ⟨y, rfl, below⟩
  obtain ⟨x, rfl, above⟩ := ab
  exact Int64.lt_asymm (above y rfl) (below x rfl)

theorem startsLater_trichotomy (a b : Option Int64) :
    StartsLater a b ∨ a = b ∨ StartsLater b a := by
  cases a with
  | none =>
    cases b with
    | none => exact .inr (.inl rfl)
    | some y => exact .inr (.inr ⟨y, rfl, nofun⟩)
  | some x =>
    cases b with
    | none => exact .inl ⟨x, rfl, nofun⟩
    | some y =>
      rcases Std.lt_trichotomy x y with less | rfl | greater
      · exact .inr (.inr ⟨y, rfl, fun z same => Option.some.inj same ▸ less⟩)
      · exact .inr (.inl rfl)
      · exact .inl ⟨x, rfl, fun z same => Option.some.inj same ▸ greater⟩

/-- The run that started later comes first, and one without a start last; of runs that started
together the one with the smaller uuid comes first. -/
def ShownBefore (a b : RunInfo) : Prop :=
  StartsLater a.startTime b.startTime ∨ a.startTime = b.startTime ∧ a.uuid < b.uuid

theorem ShownBefore.not_symm {a b : RunInfo} (ab : ShownBefore a b) : ¬ShownBefore b a := by
  rcases ab with later | ⟨together, less⟩
  · rintro (earlier | ⟨same, -⟩)
    · exact later.not_symm earlier
    · rw [same] at later
      exact later.not_symm later
  · rintro (earlier | ⟨-, more⟩)
    · rw [together] at earlier
      exact earlier.not_symm earlier
    · exact String.lt_asymm less more

theorem startedBefore_iff (a b : RunInfo) :
    startedBefore a b = true ↔
      StartsLater a.startTime b.startTime ∨ a.startTime = b.startTime ∧ a.uuid ≤ b.uuid := by
  unfold startedBefore StartsLater
  cases a.startTime <;> cases b.startTime <;> simp

theorem startedBefore_trans (a b c : RunInfo) (ab : startedBefore a b = true)
    (bc : startedBefore b c = true) : startedBefore a c = true := by
  rw [startedBefore_iff] at *
  rcases ab with later | ⟨together, le⟩
  · rcases bc with later' | ⟨together', -⟩
    · exact .inl (later.trans later')
    · exact .inl (together' ▸ later)
  · rcases bc with later' | ⟨together', le'⟩
    · exact .inl (together ▸ later')
    · exact .inr ⟨together.trans together', String.le_trans le le'⟩

theorem startedBefore_total (a b : RunInfo) : (startedBefore a b || startedBefore b a) = true := by
  rw [Bool.or_eq_true, startedBefore_iff, startedBefore_iff]
  rcases startsLater_trichotomy a.startTime b.startTime with later | together | earlier
  · exact .inl (.inl later)
  · rcases String.le_total a.uuid b.uuid with le | le
    · exact .inl (.inr ⟨together, le⟩)
    · exact .inr (.inr ⟨together.symm, le⟩)
  · exact .inr (.inl earlier)

theorem shownBefore_of_startedBefore (a b : RunInfo) (before : startedBefore a b = true)
    (apart : a.uuid ≠ b.uuid) : ShownBefore a b := by
  rcases (startedBefore_iff a b).mp before with later | ⟨together, le⟩
  · exact .inl later
  · exact .inr ⟨together, Std.lt_of_le_of_ne le apart⟩

theorem idLe_trans (a b c : Experiment) (ab : idLe a b = true) (bc : idLe b c = true) :
    idLe a c = true := by
  simp only [idLe, decide_eq_true_eq] at *
  exact String.le_trans ab bc

theorem idLe_total (a b : Experiment) : (idLe a b || idLe b a) = true := by
  simp only [idLe, Bool.or_eq_true, decide_eq_true_eq]
  exact String.le_total a.id b.id

theorem keyed_experiments_after (log : List Action) : (after log).experiments.Keyed (·.id) := by
  intro id e held
  rw [getElem?_experiments_after] at held
  obtain ⟨last, -, rfl⟩ := Option.map_eq_some_iff.mp held
  rfl

theorem keyed_runs_after (log : List Action) : (after log).runs.Keyed (·.uuid) := by
  intro uuid run held
  rw [(runReplay_replay log).info] at held
  obtain ⟨occurrence, among, rfl⟩ := List.mem_map.mp (List.mem_of_getLast? held)
  exact eq_of_beq (List.mem_filter.mp among).2

theorem shows_experiments (log : List Action) {walked : List Experiment}
    (walk : walked.Perm (after log).experiments.values) :
    Sorting.Shows (walked.mergeSort idLe) (· ∈ (after log).experiments.values) (·.id < ·.id) := by
  apply Sorting.shows_mergeSort idLe_trans idLe_total (·.id)
  · intro a b le apart
    exact Std.lt_of_le_of_ne (of_decide_eq_true le) apart
  · exact (keyed_experiments_after log).nodup_map walk
  · exact fun e => walk.mem_iff

theorem shows_runs (log : List Action) (experimentId : String) {walked : List RunInfo}
    (walk : walked.Perm (after log).runs.values) :
    Sorting.Shows ((walked.filter (·.experimentId == experimentId)).mergeSort startedBefore)
      (fun run => run ∈ (after log).runs.values ∧ run.experimentId = experimentId) ShownBefore := by
  apply Sorting.shows_mergeSort startedBefore_trans startedBefore_total (·.uuid)
    shownBefore_of_startedBefore
  · have distinct := (keyed_runs_after log).nodup_map walk
    exact distinct.sublist (List.filter_sublist.map _)
  · intro run
    rw [List.mem_filter, walk.mem_iff, beq_iff_eq]

/-- After every log, the experiments are shown once each by ascending id, and the runs of an
experiment once each, the last started first. Every walk through what is kept leads to the same
lists, and so does every log that leaves the same experiments or the same runs. -/
theorem listings_show_what_is_kept (log : List Action) :
    let s := after log
    Sorting.Shows s.allExperiments (· ∈ s.experiments.values) (·.id < ·.id) ∧
    (∀ experimentId, Sorting.Shows (s.runsOf experimentId)
      (fun run => run ∈ s.runs.values ∧ run.experimentId = experimentId) ShownBefore) ∧
    (∀ walked : List Experiment, walked.Perm s.experiments.values →
      walked.mergeSort idLe = s.allExperiments) ∧
    (∀ (experimentId : String) (walked : List RunInfo), walked.Perm s.runs.values →
      (walked.filter (·.experimentId == experimentId)).mergeSort startedBefore =
        s.runsOf experimentId) ∧
    ∀ other : List Action,
      ((∀ e, e ∈ (after other).experiments.values ↔ e ∈ s.experiments.values) →
        (after other).allExperiments = s.allExperiments) ∧
      ((∀ run, run ∈ (after other).runs.values ↔ run ∈ s.runs.values) →
        ∀ experimentId, (after other).runsOf experimentId = s.runsOf experimentId) := by
  intro s
  have experiments := shows_experiments log (List.Perm.refl s.experiments.values)
  have runs (experimentId : String) := shows_runs log experimentId (List.Perm.refl s.runs.values)
  have idAsymm (a b : Experiment) : a.id < b.id → ¬b.id < a.id := String.lt_asymm
  have runAsymm (a b : RunInfo) : ShownBefore a b → ¬ShownBefore b a := ShownBefore.not_symm
  refine ⟨experiments, runs, ?_, ?_, fun other => ⟨?_, ?_⟩⟩
  · intro walked walk
    exact experiments.unique idAsymm (shows_experiments log walk)
  · intro experimentId walked walk
    exact (runs experimentId).unique runAsymm (shows_runs log experimentId walk)
  · intro same
    have shown := shows_experiments other (List.Perm.refl _)
    simp only [same] at shown
    exact experiments.unique idAsymm shown
  · intro same experimentId
    have shown := shows_runs other experimentId (List.Perm.refl _)
    simp only [same] at shown
    exact (runs experimentId).unique runAsymm shown

theorem listings_of_started_together :
    let experiment (id : String) : Experiment := .named id "group"
    let info (uuid : String) (start : Option Int64) : RunInfo :=
      { RunInfo.new uuid "1" .running with startTime := start }
    let run (info : RunInfo) : Run := { info, data := .none }
    let listed (ids : List String) : Action :=
      .untracked .listExperiments (.fulfilled (ids.map experiment))
    let answered (info : RunInfo) : Action :=
      .untracked (.getRun info.uuid) (.fulfilled (run info))
    let shown := [info "d" (some 7), info "b" (some 5), info "c" (some 5), info "a" none]
    let found : Action := .untracked .searchRuns (.fulfilled ⟨shown.reverse.map run, none⟩)
    let log := [listed ["2", "1"], found]
    let other := listed ["1", "2", "1"] :: shown.map answered
    let s := after log
    shown.Perm s.runs.values ∧ s.runsOf "1" = shown ∧
      [experiment "1", experiment "2"].Perm s.experiments.values ∧
      s.allExperiments = [experiment "1", experiment "2"] ∧
      (∀ e, e ∈ (after other).experiments.values ↔ e ∈ s.experiments.values) ∧
      (after other).allExperiments = s.allExperiments ∧
      (∀ run, run ∈ (after other).runs.values ↔ run ∈ s.runs.values) ∧
      (after other).runsOf "1" = s.runsOf "1" := by
  intro experiment info run listed answered shown found log other s
  obtain ⟨-, -, byId, byStart, alike⟩ := listings_show_what_is_kept log
  obtain ⟨experimentsAlike, runsAlike⟩ := alike other
  have walkedRuns : shown.Perm s.runs.values := by decide +kernel
  have walkedExperiments : [experiment "1", experiment "2"].Perm s.experiments.values := by
    decide +kernel
  have sameExperiments : (after other).experiments = s.experiments := by decide +kernel
  have sameRuns : (after other).runs = s.runs := by decide +kernel
  have keptExperiments (e : Experiment) :
      e ∈ (after other).experiments.values ↔ e ∈ s.experiments.values := by rw [sameExperiments]
  have keptRuns (run : RunInfo) : run ∈ (after other).runs.values ↔ run ∈ s.runs.values := by
    rw [sameRuns]
  have sortedExperiments : [experiment "1", experiment "2"].mergeSort idLe =
      [experiment "1", experiment "2"] := List.mergeSort_of_pairwise (by decide +kernel)
  have sortedRuns : (shown.filter (·.experimentId == "1")).mergeSort startedBefore = shown :=
    List.mergeSort_of_pairwise (by decide +kernel)
  exact ⟨walkedRuns, (byStart "1" shown walkedRuns).symm.trans sortedRuns, walkedExperiments,
    (byId _ walkedExperiments).symm.trans sortedExperiments, keptExperiments,
    experimentsAlike keptExperiments, keptRuns, runsAlike keptRuns "1"⟩

end Entities

end RunBoard
