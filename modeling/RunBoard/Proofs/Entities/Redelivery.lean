import RunBoard.Proofs.Artifact.Filling
import RunBoard.Proofs.Entities.Subject

namespace RunBoard

theorem Experiment.reconcile_reconcile (known e : Experiment) :
    (known.reconcile e).reconcile e = known.reconcile e := by
  simp only [reconcile, ← Option.or_assoc, Option.or_self]

theorem Experiment.withoutTags_reconcile (e : Experiment) :
    e.withoutTags.reconcile e = e.withoutTags := by
  simp only [reconcile, withoutTags, Option.or_self]

namespace Entities

theorem ExperimentPart.fold_fold (p : ExperimentPart) (e : Experiment) :
    (p.fold e).fold e = p.fold e := by
  obtain ⟨known, tags⟩ := p
  cases known <;> cases listed : e.tags <;>
    simp only [fold, listed, Experiment.reconcile_reconcile, Experiment.withoutTags_reconcile]

theorem RunPart.put_put (p : RunPart) (run : Run) : (p.put run).put run = p.put run := by
  simp only [put, ← Option.or_assoc, Option.or_self]

theorem RunPart.putHistory_putHistory (p : RunPart) (key : String) (points : List Metric) :
    (p.putHistory key points).putHistory key points = p.putHistory key points := by
  simp only [putHistory, Table.write_write]

theorem RunPart.addListing_twice {p q : RunPart} {run : String} {path : Option String}
    {listing : ArtifactListing} (added : p.addListing run path listing = .ok q) :
    q.addListing run path listing = .ok q := by
  unfold addListing at added
  cases listed : (p.tree.getD .root).withListing run path listing.files with
  | error e =>
    rw [listed] at added
    contradiction
  | ok tree =>
    rw [listed] at added
    obtain rfl := Except.ok.inj added
    simp only [addListing, Option.getD_some, ArtifactNode.withListing_twice listed, Except.map,
      ← Option.or_assoc, Option.or_self]

theorem Part.writeTag_writeTag {owner : TagOwner} (key : String) (value : Option String)
    (p : Part owner) :
    Part.writeTag key value (Part.writeTag key value p) = Part.writeTag key value p := by
  cases owner <;> simp only [writeTag, Table.write_write]

theorem Update.twice {subject : Subject}
    {act : Part subject.owner → Except ListingError (Part subject.owner)}
    (kind : Update subject act) {p q : Part subject.owner} (done : act p = .ok q) :
    act q = .ok q := by
  cases kind with
  | addListing run path listing => exact RunPart.addListing_twice done
  | fold e =>
    obtain rfl := Except.ok.inj done
    exact congrArg Except.ok (ExperimentPart.fold_fold p e)
  | put run =>
    obtain rfl := Except.ok.inj done
    exact congrArg Except.ok (RunPart.put_put p run)
  | putHistory run key points =>
    obtain rfl := Except.ok.inj done
    exact congrArg Except.ok (RunPart.putHistory_putHistory p key points)
  | writeTag owner key value =>
    obtain rfl := Except.ok.inj done
    exact congrArg Except.ok (Part.writeTag_writeTag key value p)

theorem LocalTo.reduce_step {owner : TagOwner}
    {act : Part owner → Except ListingError (Part owner)} {a : Action}
    (updates : LocalTo owner act a) (twice : ∀ {p q}, act p = .ok q → act q = .ok q)
    (s : Entities) : (s.step a).reduce a = s.reduce a := by
  rw [updates.step_eq]
  cases done : act (s.part owner) with
  | error e => rfl
  | ok q =>
    rw [updates s, updates (s.withPart owner q), part_withPart, done, twice done]
    exact congrArg (Prod.mk _) (s.withPart_withPart owner q q)

theorem appendPage_twice (s : Entities) (page : RunPage) :
    (s.appendPage page).appendPage page = s.appendPage page := by
  simp only [appendPage, foldl_putRun, Table.assignAll_twice]

theorem replacePage_twice (s : Entities) (page : RunPage) :
    (s.replacePage page).replacePage page = s.replacePage page := by
  simp only [replacePage, appendPage, foldl_putRun, Table.assignAll_twice]

/-- A second delivery is applied or refused like the first, and leaves what the first left. -/
theorem redelivery_changes_nothing (s : Entities) (a : Action) :
    (s.step a).reduce a = s.reduce a ∧ (s.step a).step a = s.step a := by
  have same : (s.step a).reduce a = s.reduce a := by
    cases about : a.subject? with
    | some subject =>
      obtain ⟨act, kind, updates⟩ := exists_update about
      exact updates.reduce_step kind.twice s
    | none =>
      obtain ⟨id, op, phase⟩ := a
      cases phase with
      | pending | rejected e => rfl
      | fulfilled payload =>
        cases op with
        | listExperiments | searchModelVersions => rfl
        | searchRuns => exact congrArg (Prod.mk _) (s.replacePage_twice payload)
        | loadMoreRuns => exact congrArg (Prod.mk _) (s.appendPage_twice payload)
        | getExperiment | getRun | getMetricHistory | listArtifacts | setTag | deleteTag =>
          cases about
  exact ⟨same, congrArg Prod.snd same⟩

end Entities

end RunBoard
