import RunBoard.Proofs.Artifact.Apart
import RunBoard.Proofs.Artifact.Shape
import RunBoard.Proofs.Entities.Log
import RunBoard.Proofs.Entities.Parts

namespace RunBoard

def Action.directory? (uuid : String) : Action → Option (String × List ArtifactFile)
  | ⟨_, _, .pending⟩ | ⟨_, _, .rejected _⟩ => none
  | ⟨_, .listArtifacts run path, .fulfilled listing⟩ =>
    if run = uuid then some (path.getD "", listing.files) else none
  | _ => none

/-- A listing of the run's artifacts has files of its directory alone. -/
def Action.ListsEntries (uuid : String) (a : Action) : Prop :=
  ∀ path files, a.directory? uuid = some (path, files) → ArtifactNode.EntriesOf path files

namespace Entities

theorem treeOf_putTree (s : Entities) (run uuid : String) (tree : ArtifactNode)
    (rootUri : Option String) :
    ((s.putTree run tree).nameRoot run rootUri).treeOf uuid =
      if run = uuid then tree else s.treeOf uuid := by
  by_cases own : run = uuid <;> simp [treeOf, putTree, nameRoot, Std.ExtTreeMap.getElem?_insert, own]

theorem Change.treeOf {s next : Entities} {a : Action} (change : s.Change a next) (uuid : String) :
    next.treeOf uuid = s.treeOf uuid ∨
      ∃ path files, a.directory? uuid = some (path.getD "", files) ∧
        (s.treeOf uuid).withListing uuid path files = .ok (next.treeOf uuid) := by
  cases change with
  | listed id run path listing tree fits =>
    rw [treeOf_putTree]
    by_cases own : run = uuid
    · subst own
      exact .inr ⟨path, listing.files, by simp [Action.directory?], by simpa using fits⟩
    · exact .inl (if_neg own)
  | searchRuns id page | loadMoreRuns id page =>
    left
    simp only [Entities.treeOf, replacePage, appendPage, foldl_putRun]
  | _ => exact .inl rfl

theorem treeOf_after {P : ArtifactNode → Prop} {uuid : String} (root : P .root) (log : List Action)
    (kept : ∀ a ∈ log, ∀ (path : Option String) (files : List ArtifactFile) (t t' : ArtifactNode),
      a.directory? uuid = some (path.getD "", files) → t.withListing uuid path files = .ok t' →
      P t → P t') : P ((after log).treeOf uuid) := by
  induction log using List.reverseRecOn with
  | nil => exact root
  | append_singleton log a ih =>
    have held := ih fun other member => kept other (List.mem_append_left _ member)
    rw [after_snoc]
    rcases (change_step (after log) a).treeOf uuid with same | ⟨path, files, listed, fits⟩
    · rw [same]
      exact held
    · exact kept a (by simp) path files _ _ listed fits held

theorem grown_after (log : List Action) (uuid : String) : ((after log).treeOf uuid).Grown :=
  treeOf_after .root log fun _ _ _ _ _ _ _ fits grown => grown.listed fits

theorem addressed_after {log : List Action} {uuid : String}
    (entries : ∀ a ∈ log, a.ListsEntries uuid) : ((after log).treeOf uuid).Addressed := by
  refine treeOf_after ArtifactNode.addressed_root log ?_
  intro a member path files t t' listed fits addressed
  exact addressed.fill (entries a member _ files listed) (ArtifactNode.withListing_eq_ok_iff.mp fits)

theorem exists_log_of_grown {tree : ArtifactNode} (grown : tree.Grown) (uuid : String) :
    ∃ log, (after log).treeOf uuid = tree ∧
      (tree = .root ∨ (after log).trees[uuid]? = some tree) := by
  induction grown with
  | root => exact ⟨[], rfl, .inl rfl⟩
  | @listed t t' run path files _ fits ih =>
    obtain ⟨log, reached, -⟩ := ih
    refine ⟨log ++ [.untracked (.listArtifacts uuid path) (.fulfilled ⟨none, files⟩)], ?_⟩
    have here : t.withListing uuid path files = .ok t' :=
      ArtifactNode.withListing_eq_ok_iff.mpr (ArtifactNode.withListing_eq_ok_iff.mp fits)
    rw [after_snoc, Action.untracked, step_listArtifacts, reached, here]
    exact ⟨by simp [treeOf_putTree], .inr (by simp [putTree, nameRoot])⟩

theorem treeOf_step_listArtifacts (s : Entities) (id : Option RequestId) (run uuid : String)
    (path : Option String) (listing : ArtifactListing) :
    (s.step ⟨id, .listArtifacts run path, .fulfilled listing⟩).treeOf uuid =
      if run = uuid then (s.treeOf run).relisted run path listing.files else s.treeOf uuid := by
  rw [step_listArtifacts, ArtifactNode.relisted]
  cases (s.treeOf run).withListing run path listing.files with
  | ok tree => exact treeOf_putTree s run uuid tree listing.rootUri
  | error e => by_cases own : run = uuid <;> simp [own]

theorem treeOf_eq {s : Entities} {run : String} {tree : ArtifactNode}
    (held : s.trees[run]? = some tree) : s.treeOf run = tree := by
  rw [treeOf, held]
  rfl

/-- The trees after any logs are those that listings grow from a root in any order, and every node in
them is in shape. Where each listing has files of its directory alone, the file that a path finds has
this path. -/
theorem trees_in_shape :
    (∀ tree : ArtifactNode, tree.Grown ↔
      tree = .root ∨ ∃ (log : List Action) (run : String), (after log).trees[run]? = some tree) ∧
    (∀ tree : ArtifactNode, tree.Grown →
      ∀ names n, tree.descend? names = some n → n.InShape names) ∧
    ∀ (log : List Action) (run : String) (tree : ArtifactNode),
      (after log).trees[run]? = some tree → (∀ a ∈ log, a.ListsEntries run) →
      ∀ path n, tree.find? path = some n → n.isRoot = false →
        ∃ f, n.file = some f ∧ Path.segments f.path = Path.segments path ∧
          tree.find? f.path = some n := by
  refine ⟨fun tree => ⟨?_, ?_⟩, fun tree grown names n found => grown.sound.inShape found, ?_⟩
  · intro grown
    obtain ⟨log, -, kept⟩ := exists_log_of_grown grown "run"
    exact kept.imp_right fun held => ⟨log, "run", held⟩
  · rintro (rfl | ⟨log, run, held⟩)
    · exact .root
    · exact treeOf_eq held ▸ grown_after log run
  · intro log run tree held entries path n found inner
    obtain rfl := treeOf_eq held
    have below : Path.segments path ≠ [] := by
      intro here
      rw [((grown_after log run).sound _ n found).isRoot.mpr here] at inner
      contradiction
    obtain ⟨f, file, segments⟩ := addressed_after entries _ n found below
    refine ⟨f, file, segments, ?_⟩
    rw [ArtifactNode.find?, segments]
    exact found

theorem relisted_tree_in_shape :
    let listed (path : Option String) (files : List ArtifactFile) : Action :=
      .untracked (.listArtifacts "run" path) (.fulfilled ⟨none, files⟩)
    let log : List Action := [
      listed none [.file "notes" 1, .directory "model"],
      listed (some "model") [.file "model/weights" 5],
      listed none [.directory "model/", .file "log" 2],
      listed (some "/model") [.file "model//weights" 6]]
    let tree := (after log).treeOf "run"
    tree.Grown ∧ tree.InShape [] ∧ (after log).trees["run"]? = some tree ∧
      (∀ a ∈ log, a.ListsEntries "run") ∧
      ∃ n f, tree.find? "model/weights" = some n ∧ n.isRoot = false ∧ n.file = some f ∧
        f.path = "model//weights" ∧ tree.find? f.path = some n := by
  intro listed log tree
  obtain ⟨grows, shapes, paths⟩ := trees_in_shape
  have held : (after log).trees["run"]? = some tree := rfl
  have grown : tree.Grown := (grows tree).mpr (.inr ⟨log, "run", held⟩)
  have below {path : Option String} {files : List ArtifactFile}
      (entries : ArtifactNode.EntriesOf (path.getD "") files) :
      (listed path files).ListsEntries "run" := by
    intro directory found same
    obtain ⟨rfl, rfl⟩ := Prod.mk.inj (Option.some.inj same)
    exact entries
  have entries : ∀ a ∈ log, a.ListsEntries "run" := by
    simp only [log, List.forall_mem_cons]
    refine ⟨below ?_, below ?_, below ?_, below ?_, List.forall_mem_nil _⟩ <;>
      simp only [ArtifactNode.EntriesOf, List.forall_mem_cons]
    · exact ⟨⟨"notes", rfl⟩, ⟨"model", rfl⟩, List.forall_mem_nil _⟩
    · exact ⟨⟨"weights", rfl⟩, List.forall_mem_nil _⟩
    · exact ⟨⟨"model", rfl⟩, ⟨"log", rfl⟩, List.forall_mem_nil _⟩
    · exact ⟨⟨"weights", rfl⟩, List.forall_mem_nil _⟩
  have shape : tree.InShape [] := shapes tree grown [] tree (by rw [ArtifactNode.descend?])
  refine ⟨grown, shape, held, entries, ?_⟩
  have found : tree.find? "model/weights" = some (.leaf (.file "model//weights" 6)) := rfl
  obtain ⟨f, file, -, reached⟩ := paths log "run" tree held entries _ _ found rfl
  exact ⟨_, f, found, rfl, file, congrArg ArtifactFile.path (Option.some.inj file).symm, reached⟩

end Entities

end RunBoard
