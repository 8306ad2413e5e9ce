import RunBoard.Proofs.Artifact.NormalForm
import RunBoard.Proofs.Artifact.Shape

namespace RunBoard

namespace Path

theorem segments_eq_nil_iff (path : String) : segments path = [] ↔ ∀ c ∈ path.toList, c = '/' := by
  rw [segments, List.map_eq_nil_iff, pieces_eq_nil_iff]

theorem ne_empty_of_mem_segments {path name : String} (member : name ∈ segments path) : name ≠ "" := by
  obtain ⟨piece, among, rfl⟩ := List.mem_map.mp member
  have some_char := (word_of_mem_pieces among).1
  simpa using some_char

end Path

theorem ArtifactFile.name_eq_empty_iff (f : ArtifactFile) :
    f.name = "" ↔ Path.segments f.path = [] := by
  rw [f.name_eq]
  cases last : (Path.segments f.path).getLast? with
  | none => exact iff_of_true rfl (List.getLast?_eq_none_iff.mp last)
  | some name =>
    have member := List.mem_of_getLast? last
    exact iff_of_false (Path.ne_empty_of_mem_segments member) (List.ne_nil_of_mem member)

namespace ArtifactNode

/-- A path below the directory leads to the file. -/
def Reaches (t : ArtifactNode) (directory : String) (f : ArtifactFile) : Prop :=
  ∃ q, t.find? (directory ++ "/" ++ q) = some (leaf f)

theorem reaches_iff {files : List ArtifactFile} {path : String} {t t' : ArtifactNode}
    (filled : fill files (Path.segments path) t = .ok t') (f : ArtifactFile) :
    t'.Reaches path f ↔ Path.segments f.path ≠ [] ∧ lastNamed files f.name = some f := by
  constructor
  · rintro ⟨q, found⟩
    rw [find?, Path.segments_append_slash] at found
    cases below : Path.segments q with
    | nil =>
      obtain ⟨n, -, -, kept⟩ := descend?_fill_self filled
      rw [below, List.append_nil, kept] at found
      have children := congrArg children (Option.some.inj found)
      contradiction
    | cons name rest =>
      rw [below, descend?_fill_below filled] at found
      split at found
      · obtain ⟨last, among, same⟩ := Option.map_eq_some_iff.mp found
        obtain rfl : last = f := by simpa [leaf] using same
        have own : last.name = name := by
          simpa using (List.mem_filter.mp (List.mem_of_getLast? among)).2
        have some_char : name ≠ "" :=
          Path.ne_empty_of_mem_segments (below ▸ List.mem_cons_self)
        subst own
        exact ⟨mt last.name_eq_empty_iff.mpr some_char, among⟩
      · contradiction
  · rintro ⟨named, last⟩
    refine ⟨f.name, ?_⟩
    rw [find?_fill_name filled (mt f.name_eq_empty_iff.mp named), last]
    rfl

theorem segments_ne_nil_of_find? {t : ArtifactNode} (sound : t.Sound) {q : String} {f : ArtifactFile}
    (found : t.find? q = some (leaf f)) : Path.segments f.path ≠ [] := by
  have placed := sound _ _ found
  have inner : Path.segments q ≠ [] := mt placed.isRoot.mpr Bool.false_ne_true
  obtain ⟨own, file, named⟩ := placed.file _ (List.getLast?_eq_some_getLast inner)
  obtain rfl := Option.some.inj file
  have some_char := Path.ne_empty_of_mem_segments (List.getLast_mem inner)
  rw [← named] at some_char
  exact mt f.name_eq_empty_iff.mpr some_char

/-- A file is named by the last segment of its path, and has no name when there is none. In a
directory that was listed, the last file of a name is found under it, and no other one is found, nor
one without a name. No tree that listings make leads to a file without a name. -/
theorem files_found_by_name :
    (∀ f : ArtifactFile, f.name = (Path.segments f.path).getLast?.getD "" ∧
      (f.name = "" ↔ Path.segments f.path = []) ∧
      (Path.segments f.path = [] ↔ ∀ c ∈ f.path.toList, c = '/')) ∧
    (∀ (t n : ArtifactNode) (run : String) (path : Option String) (files : List ArtifactFile),
      t.find? (path.getD "") = some n → n.isDir = true →
      ∃ t', t.withListing run path files = .ok t' ∧ ∀ f ∈ files,
        (Path.segments f.path ≠ [] → ∃ last, lastNamed files f.name = some last ∧
          t'.find? (path.getD "" ++ "/" ++ f.name) = some (leaf last)) ∧
        (t'.Reaches (path.getD "") f ↔
          Path.segments f.path ≠ [] ∧ lastNamed files f.name = some f)) ∧
    ∀ t : ArtifactNode, t.Grown → ∀ q f, t.find? q = some (leaf f) → Path.segments f.path ≠ [] := by
  refine ⟨?_, ?_, fun t grown q f found => segments_ne_nil_of_find? grown.sound found⟩
  · intro f
    exact ⟨f.name_eq, f.name_eq_empty_iff, Path.segments_eq_nil_iff f.path⟩
  · intro t n run path files found dir
    have fits := (t.isOk_withListing_iff run path files).mpr ⟨n, found, dir⟩
    cases listed : t.withListing run path files with
    | error e =>
      rw [listed] at fits
      contradiction
    | ok t' =>
      have filled := withListing_eq_ok_iff.mp listed
      refine ⟨t', rfl, fun f member => ⟨?_, reaches_iff filled f⟩⟩
      intro named
      obtain ⟨last, -, -, found⟩ := exists_lastNamed member
      refine ⟨last, found, ?_⟩
      rw [find?_fill_name filled (mt f.name_eq_empty_iff.mp named), found]
      rfl

theorem files_found_by_name_below :
    let t : ArtifactNode := { root with children := some [("a", leaf (.directory "a"))] }
    let first : ArtifactFile := .directory "a/x"
    let last : ArtifactFile := .file "a//x/" 1
    let nameless : ArtifactFile := .file "//" 2
    let files := [first, last, nameless]
    t.find? "/a//" = some (leaf (.directory "a")) ∧ (leaf (.directory "a")).isDir = true ∧ t.Grown ∧
      last ∈ files ∧ Path.segments last.path ≠ [] ∧
      ∃ t', t.withListing "run" (some "/a//") files = .ok t' ∧
        t'.find? ("/a//" ++ "/" ++ last.name) = some (leaf last) ∧ t'.Reaches "/a//" last ∧
        ¬t'.Reaches "/a//" first ∧ ¬t'.Reaches "/a//" nameless ∧ t'.Grown ∧
        ∀ q, t'.find? q ≠ some (leaf nameless) := by
  intro t first last nameless files
  obtain ⟨-, listings, grownTrees⟩ := files_found_by_name
  have found : t.find? "/a//" = some (leaf (.directory "a")) := by rfl
  have rootListed : root.withListing "run" none [.directory "a"] = .ok t := rfl
  have grown : t.Grown := .listed .root rootListed
  have isLast : last ∈ files := by simp [files]
  have named : Path.segments last.path ≠ [] := by decide
  have counts : lastNamed files last.name = some last := by decide
  obtain ⟨t', fits, each⟩ := listings t _ "run" (some "/a//") files found rfl
  obtain ⟨byName, reached⟩ := each last isLast
  obtain ⟨held, same, foundLast⟩ := byName named
  obtain rfl := Option.some.inj (same.symm.trans counts)
  have grown' : t'.Grown := grown.listed fits
  have noFirst : ¬t'.Reaches "/a//" first := mt (each first (by simp [files])).2.mp (by decide)
  have noNameless : ¬t'.Reaches "/a//" nameless :=
    mt (each nameless (by simp [files])).2.mp (by decide)
  have slashes : Path.segments nameless.path = [] := by decide
  exact ⟨found, rfl, grown, isLast, named, t', fits, foundLast, reached.mpr ⟨named, counts⟩, noFirst,
    noNameless, grown', fun q found => grownTrees t' grown' q nameless found slashes⟩

/-- The entry of the directory that came first is gone once the file of its name is listed. -/
theorem file_of_taken_name_not_found :
    let first : ArtifactFile := .directory "x/a"
    let files := [first, .file "y/a" 1]
    ∃ t', root.withListing "run" none files = .ok t' ∧ first ∈ files ∧
      Path.segments first.path ≠ [] ∧ t'.find? ("" ++ "/" ++ first.name) ≠ some (leaf first) ∧
      ∀ q, t'.find? q ≠ some (leaf first) := by
  intro first files
  have listed : root.withListing "run" none files =
      .ok { root with children := some (leaves files) } := rfl
  have taken : ¬lastNamed files first.name = some first := by decide
  have lost := mt (reaches_iff (withListing_eq_ok_iff.mp listed) first).mp fun both => taken both.2
  have nowhere (q : String) :
      find? { root with children := some (leaves files) } q ≠ some (leaf first) := by
    intro found
    refine lost ⟨q, ?_⟩
    rw [find?, Path.segments_append_slash]
    exact found
  exact ⟨_, listed, List.mem_cons_self, by decide, nowhere _, nowhere⟩

end ArtifactNode

end RunBoard
