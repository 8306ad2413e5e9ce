import RunBoard.Proofs.Entities.Parts

namespace RunBoard

inductive Subject where
  | whole (owner : TagOwner)
  | metric (run key : String)
  | tag (owner : TagOwner) (key : String)
  deriving DecidableEq

def Subject.owner : Subject → TagOwner
  | whole owner => owner
  | metric run _ => .run run
  | tag owner _ => owner

/-- The subject of a fulfilled action. Pages and lists have none, as they are about many entities. -/
def Action.subject? : Action → Option Subject
  | ⟨_, _, .pending⟩ | ⟨_, _, .rejected _⟩ => none
  | ⟨_, .getExperiment _, .fulfilled e⟩ => some (.whole (.experiment e.id))
  | ⟨_, .getRun _, .fulfilled run⟩ => some (.whole (.run run.info.uuid))
  | ⟨_, .getMetricHistory run key, .fulfilled _⟩ => some (.metric run key)
  | ⟨_, .listArtifacts run _, .fulfilled _⟩ => some (.whole (.run run))
  | ⟨_, .setTag owner key _, .fulfilled _⟩ => some (.tag owner key)
  | ⟨_, .deleteTag owner key, .fulfilled _⟩ => some (.tag owner key)
  | _ => none

namespace Entities

inductive Update : (subject : Subject) →
    (Part subject.owner → Except ListingError (Part subject.owner)) → Prop
  | fold (e : Experiment) :
    Update (.whole (.experiment e.id)) fun p => .ok (ExperimentPart.fold p e)
  | put (run : Run) : Update (.whole (.run run.info.uuid)) fun p => .ok (RunPart.put p run)
  | addListing (run : String) (path : Option String) (listing : ArtifactListing) :
    Update (.whole (.run run)) fun p => RunPart.addListing p run path listing
  | putHistory (run key : String) (points : List Metric) :
    Update (.metric run key) fun p => .ok (RunPart.putHistory p key points)
  | writeTag (owner : TagOwner) (key : String) (value : Option String) :
    Update (.tag owner key) fun p => .ok (Part.writeTag key value p)

/-- An action reads and writes what is known of one owner, and nothing else. -/
def LocalTo (owner : TagOwner) (act : Part owner → Except ListingError (Part owner))
    (a : Action) : Prop :=
  ∀ s : Entities, s.reduce a = s.whole ((act (s.part owner)).map (s.withPart owner))

theorem exists_update {a : Action} {subject : Subject} (about : a.subject? = some subject) :
    ∃ act, Update subject act ∧ LocalTo subject.owner act a := by
  obtain ⟨id, op, phase⟩ := a
  cases phase with
  | pending | rejected e => cases about
  | fulfilled payload =>
    cases op with
    | getExperiment asked =>
      cases about
      exact ⟨_, .fold payload, fun s => congrArg (Prod.mk _) (s.foldExperiment_eq payload)⟩
    | getRun asked =>
      cases about
      exact ⟨_, .put payload, fun s => congrArg (Prod.mk _) (s.putRun_eq payload)⟩
    | getMetricHistory run key =>
      cases about
      exact ⟨_, .putHistory run key payload,
        fun s => congrArg (Prod.mk _) (s.replaceHistory_eq run key payload)⟩
    | listArtifacts run path =>
      cases about
      refine ⟨_, .addListing run path payload, fun s => ?_⟩
      rw [reduce_listArtifacts, putTree_eq]
      rfl
    | setTag owner key value =>
      cases about
      exact ⟨_, .writeTag owner key (some value),
        fun s => congrArg (Prod.mk _) (s.putTag_eq owner key value)⟩
    | deleteTag owner key =>
      cases about
      exact ⟨_, .writeTag owner key none, fun s => congrArg (Prod.mk _) (s.dropTag_eq owner key)⟩
    | listExperiments | searchRuns | loadMoreRuns | searchModelVersions => cases about

section

variable {owner other : TagOwner} {act : Part owner → Except ListingError (Part owner)}
  {a : Action}

theorem LocalTo.step_eq (updates : LocalTo owner act a) (s : Entities) :
    s.step a =
      match act (s.part owner) with
      | .ok p => s.withPart owner p
      | .error _ => s := by
  rw [step, updates]
  cases act (s.part owner) <;> rfl

theorem LocalTo.part_step (updates : LocalTo owner act a) (apart : owner ≠ other) (s : Entities) :
    (s.step a).part other = s.part other := by
  rw [updates.step_eq]
  split
  · exact s.part_withPart_of_ne apart _
  · rfl

end

end Entities

end RunBoard
