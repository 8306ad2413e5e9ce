import RunBoard.Artifact.Tree

namespace RunBoard.ArtifactNode

theorem descend?_cons (n : ArtifactNode) (name : String) (rest : List String) :
    n.descend? (name :: rest) = (n.children.bind (·.lookup name)).bind (·.descend? rest) := rfl

theorem isOk_fill_iff (files : List ArtifactFile) (names : List String) (n : ArtifactNode) :
    (fill files names n).isOk = true ↔
      ∃ node, n.descend? names = some node ∧ node.isDir = true := by
  induction names generalizing n with
  | nil =>
    rw [fill]
    cases dir : n.isDir <;> simp [descend?, dir, Except.isOk, Except.toBool]
  | cons name rest ih =>
    rw [fill, descend?_cons]
    cases children : n.children with
    | none => simp [Except.isOk, Except.toBool]
    | some held =>
      cases found : held.lookup name with
      | none => simp [found, Except.isOk, Except.toBool]
      | some child =>
        have below := ih child
        cases filled : fill files rest child <;>
          simp_all [Except.isOk, Except.toBool]

theorem withListing_eq_ok_iff {n tree : ArtifactNode} {run : String} {path : Option String}
    {files : List ArtifactFile} :
    n.withListing run path files = .ok tree ↔
      fill files (Path.segments (path.getD "")) n = .ok tree := by
  rw [withListing]
  cases fill files (Path.segments (path.getD "")) n with
  | ok node => exact iff_of_eq ((Except.ok.injEq node tree).trans (Except.ok.injEq node tree).symm)
  | error fault => exact iff_of_false nofun nofun

theorem withListing_eq_error_iff {n : ArtifactNode} {run : String} {path : Option String}
    {files : List ArtifactFile} {e : ListingError} :
    n.withListing run path files = .error e ↔
      e.run = run ∧ e.path = path.getD "" ∧
        fill files (Path.segments (path.getD "")) n = .error e.fault := by
  obtain ⟨own, place, found⟩ := e
  rw [withListing]
  cases fill files (Path.segments (path.getD "")) n with
  | ok node => exact iff_of_false nofun nofun
  | error fault =>
    constructor
    · intro fails
      obtain ⟨rfl, rfl, rfl⟩ := ListingError.mk.inj (Except.error.inj fails)
      exact ⟨rfl, rfl, rfl⟩
    · rintro ⟨rfl, rfl, same⟩
      obtain rfl := Except.error.inj same
      rfl

theorem isOk_withListing_iff (n : ArtifactNode) (run : String) (path : Option String)
    (files : List ArtifactFile) :
    (n.withListing run path files).isOk = true ↔
      ∃ node, n.find? (path.getD "") = some node ∧ node.isDir = true := by
  rw [find?, ← isOk_fill_iff files, withListing]
  cases fill files (Path.segments (path.getD "")) n <;> rfl

theorem lookup_replaceChild {name : String} {children : List (String × ArtifactNode)}
    {held : ArtifactNode} (found : children.lookup name = some held) (node : ArtifactNode) :
    (replaceChild name node children).lookup name = some node := by
  induction children with
  | nil => simp at found
  | cons child rest ih =>
    obtain ⟨other, held⟩ := child
    by_cases here : other = name
    · simp [replaceChild, here]
    · have there : (name == other) = false := by simpa using Ne.symm here
      simp only [List.lookup_cons, there] at found
      simp only [replaceChild, if_neg here, List.lookup_cons, there, ih found]

theorem replaceChild_replaceChild (name : String) (first last : ArtifactNode)
    (children : List (String × ArtifactNode)) :
    replaceChild name last (replaceChild name first children) = replaceChild name last children := by
  induction children with
  | nil => rfl
  | cons child rest ih =>
    obtain ⟨other, held⟩ := child
    by_cases here : other = name <;> simp [replaceChild, here, ih]

theorem fill_nil_eq_ok {files : List ArtifactFile} {n tree : ArtifactNode}
    (filled : fill files [] n = .ok tree) :
    n.isDir = true ∧ tree = { n with children := some (leaves files) } := by
  rw [fill] at filled
  split at filled
  · rename_i dir
    exact ⟨dir, (Except.ok.inj filled).symm⟩
  · contradiction

theorem fill_cons_eq_ok {files : List ArtifactFile} {name : String} {rest : List String}
    {n tree : ArtifactNode} (filled : fill files (name :: rest) n = .ok tree) :
    ∃ children held node, n.children = some children ∧ children.lookup name = some held ∧
      fill files rest held = .ok node ∧
      tree = { n with children := some (replaceChild name node children) } := by
  rw [fill] at filled
  split at filled
  · contradiction
  · rename_i children listed
    split at filled
    · contradiction
    · rename_i held found
      split at filled
      · contradiction
      · rename_i node below
        exact ⟨children, held, node, listed, found, below, (Except.ok.inj filled).symm⟩

theorem fill_twice {files : List ArtifactFile} {names : List String} {n tree : ArtifactNode}
    (filled : fill files names n = .ok tree) : fill files names tree = .ok tree := by
  induction names generalizing n tree with
  | nil =>
    obtain ⟨dir, rfl⟩ := fill_nil_eq_ok filled
    exact if_pos dir
  | cons name rest ih =>
    obtain ⟨children, held, node, _, found, below, rfl⟩ := fill_cons_eq_ok filled
    simp only [fill, lookup_replaceChild found node, ih below, replaceChild_replaceChild]

theorem withListing_twice {n tree : ArtifactNode} {run : String} {path : Option String}
    {files : List ArtifactFile} (listed : n.withListing run path files = .ok tree) :
    tree.withListing run path files = .ok tree := by
  rw [withListing_eq_ok_iff] at listed ⊢
  exact fill_twice listed

end RunBoard.ArtifactNode
