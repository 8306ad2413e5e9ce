import RunBoard.Proofs.Entities.LabelKeys

namespace RunBoard

def lastValue (labels : List Label) (key : String) : Option String :=
  (labels.filter (·.key == key)).getLast?.map (·.value)

theorem labelTable_ne_empty {labels : List Label} (some_label : labels ≠ []) :
    labelTable labels ≠ ∅ := by
  obtain ⟨label, rest, rfl⟩ := List.exists_cons_of_ne_nil some_label
  intro bare
  have found := getElem?_labelTable (label :: rest) label.key
  rw [bare, Std.ExtTreeMap.getElem?_empty, eq_comm, List.getLast?_eq_none_iff] at found
  simp at found

def TagMap := TagOwner → String → Option String

namespace TagMap

def empty : TagMap := fun _ _ => none

def assign (m : TagMap) (owner : TagOwner) (labels : List Label) : TagMap :=
  fun other key => if owner = other then lastValue labels key else m other key

def write (m : TagMap) (owner : TagOwner) (key : String) (value : Option String) : TagMap :=
  fun other field => if owner = other ∧ key = field then value else m other field

def assignRun (m : TagMap) (run : Run) : TagMap := m.assign (.run run.info.uuid) run.data.tags

/-- The tags of the last entry of an experiment that has some. -/
def listedTags (experiments : List Experiment) (id : String) : List Label :=
  (((experiments.filter (·.id == id)).filterMap (·.tags)).filter (!·.isEmpty)).getLast?.getD []

def relist (m : TagMap) (experiments : List Experiment) : TagMap
  | .run uuid => m (.run uuid)
  | .experiment id => lastValue (listedTags experiments id)

def fold (m : TagMap) (e : Experiment) : TagMap :=
  match e.tags with
  | some tags => m.assign (.experiment e.id) tags
  | none => m

def next (m : TagMap) : Action → TagMap
  | ⟨_, _, .pending⟩ | ⟨_, _, .rejected _⟩ => m
  | ⟨_, .listExperiments, .fulfilled experiments⟩ => m.relist experiments
  | ⟨_, .getExperiment _, .fulfilled e⟩ => m.fold e
  | ⟨_, .getRun _, .fulfilled run⟩ => m.assignRun run
  | ⟨_, .searchRuns, .fulfilled page⟩ => page.runs.foldl assignRun m
  | ⟨_, .loadMoreRuns, .fulfilled page⟩ => page.runs.foldl assignRun m
  | ⟨_, .setTag owner key value, .fulfilled _⟩ => m.write owner key (some value)
  | ⟨_, .deleteTag owner key, .fulfilled _⟩ => m.write owner key none
  | _ => m

def after (log : List Action) : TagMap := log.foldl next empty

end TagMap

namespace Entities

def tag? (s : Entities) : TagOwner → String → Option String
  | .run uuid, key => (s.runTags.lookIn uuid key).map (·.value)
  | .experiment id, key => (s.experimentTags.lookIn id key).map (·.value)

structure HoldsTags (m : TagMap) (s : Entities) : Prop where
  tag (owner : TagOwner) (key : String) : s.tag? owner key = m owner key
  runs : s.runTags.NoEmptyPart
  experiments : s.experimentTags.NoEmptyPart

theorem holdsTags_empty : HoldsTags .empty .empty where
  tag owner key := by cases owner <;> simp [tag?, Table.lookIn, empty, TagMap.empty]
  runs := .empty
  experiments := .empty

theorem value_lookIn_replaceTags (table : Table (Table Label)) (owner other key : String)
    (tags : List Label) :
    ((replaceTags table owner tags).lookIn other key).map (·.value) =
      if owner = other then lastValue tags key else (table.lookIn other key).map (·.value) := by
  unfold replaceTags
  split
  · rename_i bare
    rw [Table.lookIn_erase, List.isEmpty_iff.mp bare]
    split <;> rfl
  · rw [Table.lookIn_insert, getElem?_labelTable]
    split <;> rfl

theorem noEmptyPart_replaceTags {table : Table (Table Label)} (full : table.NoEmptyPart)
    (owner : String) (tags : List Label) : (replaceTags table owner tags).NoEmptyPart := by
  unfold replaceTags
  split
  · exact full.erase owner
  · rename_i labels
    exact full.insert owner (labelTable_ne_empty (mt List.isEmpty_iff.mpr labels))

theorem HoldsTags.putRun {m : TagMap} {s : Entities} (held : HoldsTags m s) (run : Run) :
    HoldsTags (m.assignRun run) (s.putRun run) where
  tag
    | .run uuid, key => by
      have before := held.tag (.run uuid) key
      simp only [tag?] at before
      simp only [tag?, Entities.putRun, putRunInfo, putRunData, nameRoot, value_lookIn_replaceTags,
        before, TagMap.assignRun, TagMap.assign, TagOwner.run.injEq]
    | .experiment id, key => held.tag (.experiment id) key
  runs := noEmptyPart_replaceTags held.runs run.info.uuid run.data.tags
  experiments := held.experiments

theorem HoldsTags.putRuns {m : TagMap} {s : Entities} (held : HoldsTags m s) (runs : List Run) :
    HoldsTags (runs.foldl TagMap.assignRun m) (runs.foldl Entities.putRun s) := by
  induction runs generalizing m s with
  | nil => exact held
  | cons run rest ih => exact ih (held.putRun run)

theorem taggedEntries_filter (experiments : List Experiment) (id : String) :
    ((experiments.filterMap taggedEntry).filter (·.1 == id)).map (·.2) =
      (((experiments.filter (·.id == id)).filterMap (·.tags)).filter (!·.isEmpty)).map
        labelTable := by
  induction experiments with
  | nil => rfl
  | cons e rest ih =>
    by_cases own : e.id = id <;> rcases tags : e.tags with _ | _ | ⟨tag, tags⟩ <;>
      simp [taggedEntry, own, tags, ih]

theorem value_lookIn_replaceExperiments (s : Entities) (experiments : List Experiment)
    (id key : String) :
    ((s.replaceExperiments experiments).experimentTags.lookIn id key).map (·.value) =
      lastValue (TagMap.listedTags experiments id) key := by
  rw [Table.lookIn, replaceExperiments, Table.getElem?_ofPairs, taggedEntries_filter,
    List.getLast?_map, TagMap.listedTags]
  cases (((experiments.filter (·.id == id)).filterMap (·.tags)).filter (!·.isEmpty)).getLast? with
  | none => rfl
  | some labels => exact congrArg (Option.map _) (getElem?_labelTable labels key)

theorem noEmptyPart_replaceExperiments (s : Entities) (experiments : List Experiment) :
    (s.replaceExperiments experiments).experimentTags.NoEmptyPart := by
  apply Table.NoEmptyPart.ofPairs
  intro pair member
  obtain ⟨e, _, listed⟩ := List.mem_filterMap.mp member
  unfold taggedEntry at listed
  split at listed
  · rw [← Option.some.inj listed]
    exact labelTable_ne_empty (List.cons_ne_nil _ _)
  · contradiction

theorem HoldsTags.replaceExperiments {m : TagMap} {s : Entities} (held : HoldsTags m s)
    (experiments : List Experiment) :
    HoldsTags (m.relist experiments) (s.replaceExperiments experiments) where
  tag
    | .run uuid, key => held.tag (.run uuid) key
    | .experiment id, key => value_lookIn_replaceExperiments s experiments id key
  runs := held.runs
  experiments := noEmptyPart_replaceExperiments s experiments

theorem HoldsTags.foldExperiment {m : TagMap} {s : Entities} (held : HoldsTags m s)
    (e : Experiment) : HoldsTags (m.fold e) (s.foldExperiment e) := by
  cases tags : e.tags with
  | none =>
    simp only [TagMap.fold, tags]
    exact {
      tag := by
        intro owner key
        rw [← held.tag]
        cases owner <;> simp only [tag?, Entities.foldExperiment, tags]
      runs := held.runs
      experiments := by simpa only [Entities.foldExperiment, tags] using held.experiments }
  | some labels =>
    simp only [TagMap.fold, tags]
    exact {
      tag := by
        intro owner key
        have before := held.tag owner key
        cases owner with
        | run uuid => simpa [tag?, Entities.foldExperiment, TagMap.assign] using before
        | experiment id =>
          simp only [tag?] at before
          simp only [tag?, Entities.foldExperiment, tags, value_lookIn_replaceTags, before,
            TagMap.assign, TagOwner.experiment.injEq]
      runs := held.runs
      experiments := by
        simpa only [Entities.foldExperiment, tags] using
          noEmptyPart_replaceTags held.experiments e.id labels }

theorem HoldsTags.putTag {m : TagMap} {s : Entities} (held : HoldsTags m s) (owner : TagOwner)
    (key value : String) : HoldsTags (m.write owner key (some value)) (s.putTag owner key value) where
  tag other field := by
    have before := held.tag other field
    cases owner <;> cases other <;> simp only [tag?] at before <;>
      simp [tag?, Entities.putTag, TagMap.write, Table.lookIn_putIn, apply_ite (Option.map _), before]
  runs := by
    cases owner with
    | run uuid => exact held.runs.putIn uuid key ⟨key, value⟩
    | experiment id => exact held.runs
  experiments := by
    cases owner with
    | run uuid => exact held.experiments
    | experiment id => exact held.experiments.putIn id key ⟨key, value⟩

theorem HoldsTags.dropTag {m : TagMap} {s : Entities} (held : HoldsTags m s) (owner : TagOwner)
    (key : String) : HoldsTags (m.write owner key none) (s.dropTag owner key) where
  tag other field := by
    have before := held.tag other field
    cases owner <;> cases other <;> simp only [tag?] at before <;>
      simp [tag?, Entities.dropTag, TagMap.write, Table.lookIn_dropFrom, apply_ite (Option.map _), before]
  runs := by
    cases owner with
    | run uuid => exact held.runs.dropFrom uuid key
    | experiment id => exact held.runs
  experiments := by
    cases owner with
    | run uuid => exact held.experiments
    | experiment id => exact held.experiments.dropFrom id key

theorem HoldsTags.next {m : TagMap} {s next : Entities} {a : Action} (held : HoldsTags m s)
    (change : s.Change a next) : HoldsTags (m.next a) next := by
  cases change with
  | listExperiments id experiments => exact held.replaceExperiments experiments
  | getExperiment id asked e => exact held.foldExperiment e
  | getRun id asked run => exact held.putRun run
  | searchRuns id page =>
    have opened : HoldsTags m { s with runs := ∅ } := ⟨held.tag, held.runs, held.experiments⟩
    have filled := opened.putRuns page.runs
    exact ⟨filled.tag, filled.runs, filled.experiments⟩
  | loadMoreRuns id page =>
    have filled := held.putRuns page.runs
    exact ⟨filled.tag, filled.runs, filled.experiments⟩
  | setRunTag id uuid key value => exact held.putTag (.run uuid) key value
  | setExperimentTag id owner key value => exact held.putTag (.experiment owner) key value
  | deleteRunTag id uuid key => exact held.dropTag (.run uuid) key
  | deleteExperimentTag id owner key => exact held.dropTag (.experiment owner) key
  | _ => exact ⟨held.tag, held.runs, held.experiments⟩

theorem holdsTags_replay (log : List Action) :
    HoldsTags (TagMap.after log) (after log) := by
  apply replay_induction holdsTags_empty
  intro log a s held
  rw [TagMap.after, List.foldl_append]
  exact held.next (s.change_step a)

theorem labels_of_values {table : Table (Table Label)} (full : table.NoEmptyPart)
    (keyed : table.PartsKeyed Label.key) (owner : String) :
    (table[owner]? = none ↔ ∀ key, (table.lookIn owner key).map (·.value) = none) ∧
      table[owner]? ≠ some ∅ ∧
      ∀ key, table[owner]?.bind (·[key]?) =
        ((table.lookIn owner key).map (·.value)).map (Label.mk key) := by
  refine ⟨?_, fun bare => full owner ∅ bare rfl, ?_⟩
  · simp only [Option.map_eq_none_iff]
    exact full.getElem?_eq_none_iff owner
  · intro key
    show table.lookIn owner key = _
    cases held : table.lookIn owner key with
    | none => rfl
    | some label =>
      rw [← keyed owner key label held]
      rfl

/-- After every log, an owner has a table of tags exactly when the map has a tag of it; the table is
never empty, and it holds the tags of the map, each under its own key. -/
theorem replay_tags_refine (log : List Action) (owner : TagOwner) :
    ((after log).tagsOf owner = none ↔
        ∀ key, TagMap.after log owner key = none) ∧
      (after log).tagsOf owner ≠ some ∅ ∧
      ∀ key, ((after log).tagsOf owner).bind (·[key]?) =
        (TagMap.after log owner key).map (Label.mk key) := by
  have held := holdsTags_replay log
  have keyed := labelsKeyed_after log
  simp only [← held.tag]
  cases owner with
  | run uuid => exact labels_of_values held.runs keyed.runTags uuid
  | experiment id => exact labels_of_values held.experiments keyed.experimentTags id

end Entities

end RunBoard
