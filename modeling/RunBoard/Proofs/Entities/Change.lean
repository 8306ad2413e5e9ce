import RunBoard.Entities.Select

namespace RunBoard.Entities

/-- The changes that an action can make. One that is not fulfilled changes nothing, and neither does
a listing that has no place in the tree. -/
inductive Change (s : Entities) : Action → Entities → Prop
  | pending (id : Option RequestId) (op : Operation) : Change s ⟨id, op, .pending⟩ s
  | rejected (id : Option RequestId) (op : Operation) (e : ApiError) : Change s ⟨id, op, .rejected e⟩ s
  | listExperiments (id : Option RequestId) (experiments : List Experiment) :
    Change s ⟨id, .listExperiments, .fulfilled experiments⟩ (s.replaceExperiments experiments)
  | getExperiment (id : Option RequestId) (asked : String) (e : Experiment) :
    Change s ⟨id, .getExperiment asked, .fulfilled e⟩ (s.foldExperiment e)
  | getRun (id : Option RequestId) (asked : String) (run : Run) :
    Change s ⟨id, .getRun asked, .fulfilled run⟩ (s.putRun run)
  | searchRuns (id : Option RequestId) (page : RunPage) :
    Change s ⟨id, .searchRuns, .fulfilled page⟩ (s.replacePage page)
  | loadMoreRuns (id : Option RequestId) (page : RunPage) :
    Change s ⟨id, .loadMoreRuns, .fulfilled page⟩ (s.appendPage page)
  | getMetricHistory (id : Option RequestId) (run key : String) (points : List Metric) :
    Change s ⟨id, .getMetricHistory run key, .fulfilled points⟩ (s.replaceHistory run key points)
  | listed (id : Option RequestId) (run : String) (path : Option String) (listing : ArtifactListing)
    (tree : ArtifactNode) (fits : (s.treeOf run).withListing run path listing.files = .ok tree) :
    Change s ⟨id, .listArtifacts run path, .fulfilled listing⟩
      ((s.putTree run tree).nameRoot run listing.rootUri)
  | refused (id : Option RequestId) (run : String) (path : Option String) (listing : ArtifactListing)
    (e : ListingError) (fails : (s.treeOf run).withListing run path listing.files = .error e) :
    Change s ⟨id, .listArtifacts run path, .fulfilled listing⟩ s
  | setRunTag (id : Option RequestId) (uuid key value : String) :
    Change s ⟨id, .setTag (.run uuid) key value, .fulfilled ()⟩ (s.putTag (.run uuid) key value)
  | setExperimentTag (id : Option RequestId) (owner key value : String) :
    Change s ⟨id, .setTag (.experiment owner) key value, .fulfilled ()⟩
      (s.putTag (.experiment owner) key value)
  | deleteRunTag (id : Option RequestId) (uuid key : String) :
    Change s ⟨id, .deleteTag (.run uuid) key, .fulfilled ()⟩ (s.dropTag (.run uuid) key)
  | deleteExperimentTag (id : Option RequestId) (owner key : String) :
    Change s ⟨id, .deleteTag (.experiment owner) key, .fulfilled ()⟩ (s.dropTag (.experiment owner) key)
  | searchModelVersions (id : Option RequestId) (versions : List ModelVersion) :
    Change s ⟨id, .searchModelVersions, .fulfilled versions⟩ (s.replaceVersions versions)

/-- An update that is made as a whole or leaves everything as it is. -/
def whole (s : Entities) : Except ListingError Entities → Except ListingError Unit × Entities
  | .ok next => (.ok (), next)
  | .error e => (.error e, s)

theorem reduce_listArtifacts (s : Entities) (id : Option RequestId) (run : String)
    (path : Option String) (listing : ArtifactListing) :
    s.reduce ⟨id, .listArtifacts run path, .fulfilled listing⟩ =
      s.whole (((s.treeOf run).withListing run path listing.files).map fun tree =>
        (s.putTree run tree).nameRoot run listing.rootUri) := by
  have read : s.reduce ⟨id, .listArtifacts run path, .fulfilled listing⟩ =
      (do
        let tree ← liftM ((s.treeOf run).withListing run path listing.files)
        modify (·.putTree run tree)
        modify (·.nameRoot run listing.rootUri) : Writes).run s := rfl
  rw [read]
  cases (s.treeOf run).withListing run path listing.files <;> rfl

theorem step_listArtifacts (s : Entities) (id : Option RequestId) (run : String)
    (path : Option String) (listing : ArtifactListing) :
    s.step ⟨id, .listArtifacts run path, .fulfilled listing⟩ =
      match (s.treeOf run).withListing run path listing.files with
      | .ok tree => (s.putTree run tree).nameRoot run listing.rootUri
      | .error _ => s := by
  rw [step, reduce_listArtifacts]
  cases (s.treeOf run).withListing run path listing.files <;> rfl

theorem outcome_listArtifacts (s : Entities) (id : Option RequestId) (run : String)
    (path : Option String) (listing : ArtifactListing) :
    s.outcome ⟨id, .listArtifacts run path, .fulfilled listing⟩ =
      ((s.treeOf run).withListing run path listing.files).map fun _ => () := by
  rw [outcome, reduce_listArtifacts]
  cases (s.treeOf run).withListing run path listing.files <;> rfl

theorem change_step (s : Entities) (a : Action) : s.Change a (s.step a) := by
  obtain ⟨id, op, phase⟩ := a
  cases phase with
  | pending => exact .pending id op
  | rejected e => exact .rejected id op e
  | fulfilled payload =>
    cases op with
    | listExperiments => exact .listExperiments id payload
    | getExperiment asked => exact .getExperiment id asked payload
    | getRun asked => exact .getRun id asked payload
    | searchRuns => exact .searchRuns id payload
    | loadMoreRuns => exact .loadMoreRuns id payload
    | getMetricHistory run key => exact .getMetricHistory id run key payload
    | listArtifacts run path =>
      rw [step_listArtifacts]
      split
      · rename_i tree fits
        exact .listed id run path payload tree fits
      · rename_i e fails
        exact .refused id run path payload e fails
    | setTag owner key value =>
      cases owner with
      | run uuid => exact .setRunTag id uuid key value
      | experiment owner => exact .setExperimentTag id owner key value
    | deleteTag owner key =>
      cases owner with
      | run uuid => exact .deleteRunTag id uuid key
      | experiment owner => exact .deleteExperimentTag id owner key
    | searchModelVersions => exact .searchModelVersions id payload

end RunBoard.Entities
