import RunBoard.Proofs.Entities.Log
import RunBoard.Proofs.Table.Keyed

namespace RunBoard

theorem keyed_labelTable (labels : List Label) : (labelTable labels).Keyed Label.key :=
  Table.keyed_ofPairs labels fun _ => rfl

namespace Entities

theorem partsKeyed_replaceTags {table : Table (Table Label)} (keyed : table.PartsKeyed Label.key)
    (owner : String) (tags : List Label) : (replaceTags table owner tags).PartsKeyed Label.key := by
  unfold replaceTags
  split
  · exact keyed.erase owner
  · exact keyed.insert owner (keyed_labelTable tags)

structure LabelsKeyed (s : Entities) : Prop where
  params : s.params.PartsKeyed Label.key
  runTags : s.runTags.PartsKeyed Label.key
  experimentTags : s.experimentTags.PartsKeyed Label.key

namespace LabelsKeyed

theorem empty : LabelsKeyed .empty := ⟨.empty, .empty, .empty⟩

variable {s : Entities}

theorem putRun (held : s.LabelsKeyed) (run : Run) : (s.putRun run).LabelsKeyed where
  params := held.params.insert run.info.uuid (keyed_labelTable run.data.params)
  runTags := partsKeyed_replaceTags held.runTags run.info.uuid run.data.tags
  experimentTags := held.experimentTags

theorem putRuns (held : s.LabelsKeyed) (runs : List Run) :
    (runs.foldl Entities.putRun s).LabelsKeyed := by
  induction runs generalizing s with
  | nil => exact held
  | cons run rest ih => exact ih (held.putRun run)

theorem replaceExperiments (held : s.LabelsKeyed) (experiments : List Experiment) :
    (s.replaceExperiments experiments).LabelsKeyed where
  params := held.params
  runTags := held.runTags
  experimentTags := by
    apply Table.PartsKeyed.ofPairs
    intro pair member
    obtain ⟨e, -, listed⟩ := List.mem_filterMap.mp member
    unfold taggedEntry at listed
    split at listed
    · rw [← Option.some.inj listed]
      exact keyed_labelTable _
    · contradiction

theorem foldExperiment (held : s.LabelsKeyed) (e : Experiment) :
    (s.foldExperiment e).LabelsKeyed where
  params := held.params
  runTags := held.runTags
  experimentTags := by
    unfold Entities.foldExperiment
    cases e.tags with
    | none => exact held.experimentTags
    | some tags => exact partsKeyed_replaceTags held.experimentTags e.id tags

theorem putTag (held : s.LabelsKeyed) (owner : TagOwner) (key value : String) :
    (s.putTag owner key value).LabelsKeyed := by
  cases owner with
  | run uuid => exact { held with runTags := held.runTags.putIn uuid ⟨key, value⟩ }
  | experiment id =>
    exact { held with experimentTags := held.experimentTags.putIn id ⟨key, value⟩ }

theorem dropTag (held : s.LabelsKeyed) (owner : TagOwner) (key : String) :
    (s.dropTag owner key).LabelsKeyed := by
  cases owner with
  | run uuid => exact { held with runTags := held.runTags.dropFrom uuid key }
  | experiment id => exact { held with experimentTags := held.experimentTags.dropFrom id key }

theorem next {next : Entities} {a : Action} (held : s.LabelsKeyed) (change : s.Change a next) :
    next.LabelsKeyed := by
  cases change with
  | listExperiments id experiments => exact held.replaceExperiments experiments
  | getExperiment id asked e => exact held.foldExperiment e
  | getRun id asked run => exact held.putRun run
  | searchRuns id page =>
    have opened : LabelsKeyed { s with runs := ∅ } := { held with }
    exact { opened.putRuns page.runs with }
  | loadMoreRuns id page => exact { held.putRuns page.runs with }
  | setRunTag id uuid key value => exact held.putTag (.run uuid) key value
  | setExperimentTag id owner key value => exact held.putTag (.experiment owner) key value
  | deleteRunTag id uuid key => exact held.dropTag (.run uuid) key
  | deleteExperimentTag id owner key => exact held.dropTag (.experiment owner) key
  | _ => exact { held with }

end LabelsKeyed

theorem labelsKeyed_after (log : List Action) : (after log).LabelsKeyed :=
  replay_induction (P := fun _ s => s.LabelsKeyed) .empty
    (fun _ a s held => held.next (s.change_step a)) log

end Entities

end RunBoard
