import RunBoard.Proofs.Artifact.Update

namespace RunBoard.ArtifactNode

structure PlacedAt (n : ArtifactNode) (names : List String) : Prop where
  isRoot : n.isRoot = true ↔ names = []
  file : ∀ name, names.getLast? = some name → ∃ f, n.file = some f ∧ f.name = name
  isDir : n.children ≠ none → n.isDir = true
  ascending : ((n.children.getD []).map (·.1)).Pairwise (· < ·)

def Sound (t : ArtifactNode) : Prop := ∀ names n, t.descend? names = some n → n.PlacedAt names

def Addressed (t : ArtifactNode) : Prop :=
  ∀ names n, t.descend? names = some n → names ≠ [] →
    ∃ f, n.file = some f ∧ Path.segments f.path = names

theorem descend?_root_iff (names : List String) (n : ArtifactNode) :
    root.descend? names = some n ↔ names = [] ∧ n = root := by
  cases names with
  | nil => simp [descend?, eq_comm]
  | cons name rest => simp [descend?, child?, root]

theorem sound_root : root.Sound := by
  intro names n found
  obtain ⟨rfl, rfl⟩ := (descend?_root_iff names n).mp found
  exact ⟨by simp [root], nofun, fun listed => absurd rfl listed, List.Pairwise.nil⟩

theorem addressed_root : root.Addressed := by
  intro names n found inner
  exact absurd ((descend?_root_iff names n).mp found).1 inner

theorem origin {files : List ArtifactFile} {names others : List String} {t t' after : ArtifactNode}
    (filled : fill files names t = .ok t') (found : t'.descend? others = some after) :
    (∃ before, t.descend? others = some before ∧ before.Alike after) ∨
      (others = names ∧ ∃ before, t.descend? names = some before ∧ before.isDir = true ∧
        after = { before with children := some (leaves files) }) ∨
      ∃ f ∈ files, others = names ++ [f.name] ∧ after = leaf f := by
  by_cases left : others <+: names
  · obtain ⟨rest, rfl⟩ := left
    cases rest with
    | nil =>
      rw [List.append_nil] at filled ⊢
      obtain ⟨before, held, dir, kept⟩ := descend?_fill_self filled
      rw [kept] at found
      exact .inr (.inl ⟨rfl, before, held, dir, (Option.some.inj found).symm⟩)
    | cons name rest =>
      obtain ⟨before, node, held, kept, alike⟩ := descend?_fill_above filled
      rw [kept] at found
      exact .inl ⟨before, held, Option.some.inj found ▸ alike⟩
  · by_cases right : names <+: others
    · obtain ⟨rest, rfl⟩ := right
      cases rest with
      | nil => exact absurd (by simp) left
      | cons name rest =>
        rw [descend?_fill_below filled] at found
        split at found
        · rename_i last
          subst last
          obtain ⟨f, named, rfl⟩ := Option.map_eq_some_iff.mp found
          have among := List.mem_filter.mp (List.mem_of_getLast? named)
          obtain rfl : f.name = name := by simpa using among.2
          exact .inr (.inr ⟨f, among.1, rfl, rfl⟩)
        · contradiction
    · rw [descend?_fill_apart filled left right] at found
      exact .inl ⟨after, found, rfl, rfl, rfl⟩

theorem PlacedAt.alike {names : List String} {before after : ArtifactNode}
    (placed : before.PlacedAt names) (alike : before.Alike after) : after.PlacedAt names where
  isRoot := by rw [alike.isRoot, placed.isRoot]
  file := by rw [alike.file]; exact placed.file
  isDir := by
    intro listed
    rw [ArtifactNode.isDir, alike.isRoot, alike.file]
    apply placed.isDir
    intro unlisted
    have names := alike.names
    rw [unlisted] at names
    exact listed (Option.map_eq_none_iff.mp names)
  ascending := by
    have names := congrArg (·.getD []) alike.names
    have of_map (children : Option (List (String × ArtifactNode))) :
        (children.map (·.map (·.1))).getD [] = (children.getD []).map (·.1) := by
      cases children <;> rfl
    simp only [of_map] at names
    rw [names]
    exact placed.ascending

theorem Sound.fill {files : List ArtifactFile} {names : List String} {t t' : ArtifactNode}
    (sound : t.Sound) (filled : fill files names t = .ok t') : t'.Sound := by
  intro others after found
  rcases origin filled found with ⟨before, held, alike⟩ | ⟨rfl, before, held, dir, rfl⟩ |
    ⟨f, -, rfl, rfl⟩
  · exact (sound others before held).alike alike
  · have placed := sound others before held
    exact ⟨placed.isRoot, placed.file, fun _ => dir, Table.ascending_toList _⟩
  · refine ⟨by simp [leaf], ?_, fun listed => absurd rfl listed, List.Pairwise.nil⟩
    intro name last
    rw [List.getLast?_concat] at last
    exact ⟨f, rfl, Option.some.inj last⟩

/-- The trees that listings make of a root. -/
inductive Grown : ArtifactNode → Prop
  | root : Grown root
  | listed {t t' : ArtifactNode} {run : String} {path : Option String} {files : List ArtifactFile}
    (grown : Grown t) (fits : t.withListing run path files = .ok t') : Grown t'

theorem Grown.sound {t : ArtifactNode} (grown : t.Grown) : t.Sound := by
  induction grown with
  | root => exact sound_root
  | listed _ fits sound => exact sound.fill (withListing_eq_ok_iff.mp fits)

/-- Each file is one segment below the directory that it was listed for. -/
def EntriesOf (path : String) (files : List ArtifactFile) : Prop :=
  ∀ f ∈ files, ∃ name, Path.segments f.path = Path.segments path ++ [name]

theorem Addressed.fill {files : List ArtifactFile} {path : String} {t t' : ArtifactNode}
    (addressed : t.Addressed) (entries : EntriesOf path files)
    (filled : fill files (Path.segments path) t = .ok t') : t'.Addressed := by
  intro others after found inner
  rcases origin filled found with ⟨before, held, alike⟩ | ⟨rfl, before, held, -, rfl⟩ |
    ⟨f, member, rfl, rfl⟩
  · rw [alike.file]
    exact addressed others before held inner
  · exact addressed _ before held inner
  · obtain ⟨name, segments⟩ := entries f member
    refine ⟨f, rfl, ?_⟩
    rw [f.name_eq, segments, List.getLast?_concat]
    rfl

theorem Sound.child {t n : ArtifactNode} {names : List String} (sound : t.Sound)
    (found : t.descend? names = some n) {entry : String × ArtifactNode}
    (member : entry ∈ n.children.getD []) : entry.2.PlacedAt (names ++ [entry.1]) := by
  have held := (Table.lookup_eq_some_iff_mem (sound names n found).ascending entry.1 entry.2).mpr member
  apply sound
  rw [descend?_append, found, Option.bind_some, descend?, child?]
  cases listed : n.children with
  | none =>
    rw [listed] at held
    contradiction
  | some children =>
    rw [listed] at held
    rw [Option.bind_some]
    exact (congrArg (Option.bind · _) held).trans rfl

theorem PlacedAt.name_eq {n : ArtifactNode} {names : List String} {name : String}
    (placed : n.PlacedAt (names ++ [name])) : n.name = name := by
  obtain ⟨f, file, named⟩ := placed.file name List.getLast?_concat
  rw [ArtifactNode.name, file]
  exact named

theorem listedBefore_iff (a b : ArtifactNode) :
    a.listedBefore b = true ↔
      a.isDir = true ∧ b.isDir = false ∨ a.isDir = b.isDir ∧ a.name ≤ b.name := by
  simp [listedBefore]

theorem listedBefore_trans (a b c : ArtifactNode) (ab : a.listedBefore b = true)
    (bc : b.listedBefore c = true) : a.listedBefore c = true := by
  rw [listedBefore_iff] at *
  rcases ab with ⟨dir, file⟩ | ⟨same, names⟩
  · rcases bc with ⟨dir', -⟩ | ⟨same', -⟩
    · rw [file] at dir'
      contradiction
    · exact .inl ⟨dir, same' ▸ file⟩
  · rcases bc with ⟨dir', file'⟩ | ⟨same', names'⟩
    · exact .inl ⟨same ▸ dir', file'⟩
    · exact .inr ⟨same.trans same', String.le_trans names names'⟩

theorem listedBefore_total (a b : ArtifactNode) : (a.listedBefore b || b.listedBefore a) = true := by
  rw [Bool.or_eq_true, listedBefore_iff, listedBefore_iff]
  cases left : a.isDir <;> cases right : b.isDir <;> simp [String.le_total]

theorem listing_perm (n : ArtifactNode) : n.listing.Perm ((n.children.getD []).map (·.2)) :=
  List.mergeSort_perm _ _

theorem listing_ordered (n : ArtifactNode) : n.listing.Pairwise (·.listedBefore · = true) :=
  List.pairwise_mergeSort listedBefore_trans listedBefore_total _

theorem eq_filter_append_filter {nodes : List ArtifactNode}
    (ordered : nodes.Pairwise (·.listedBefore · = true)) :
    nodes = nodes.filter (·.isDir) ++ nodes.filter (!·.isDir) := by
  induction nodes with
  | nil => rfl
  | cons n rest ih =>
    obtain ⟨first, later⟩ := List.pairwise_cons.mp ordered
    cases dir : n.isDir with
    | true =>
      have tail := ih later
      simpa [dir] using tail
    | false =>
      have files : ∀ node ∈ rest, node.isDir = false := by
        intro node member
        rcases (listedBefore_iff n node).mp (first node member) with ⟨dir', -⟩ | ⟨same, -⟩
        · rw [dir] at dir'
          contradiction
        · rw [← same, dir]
      have none_dir : rest.filter (·.isDir) = [] := List.filter_eq_nil_iff.mpr fun node member =>
        ne_true_of_eq_false (files node member)
      have all_files : rest.filter (!·.isDir) = rest := List.filter_eq_self.mpr fun node member => by
        rw [files node member]
        rfl
      simp [dir, none_dir, all_files]

theorem names_ascend {nodes : List ArtifactNode} {dir : Bool}
    (ordered : nodes.Pairwise (·.listedBefore · = true)) (distinct : (nodes.map (·.name)).Nodup)
    (kind : ∀ n ∈ nodes, n.isDir = dir) : (nodes.map (·.name)).Pairwise (· < ·) := by
  rw [List.pairwise_map]
  rw [List.Nodup, List.pairwise_map] at distinct
  refine (ordered.and distinct).imp_of_mem ?_
  rintro a b left right ⟨before, apart⟩
  rcases (listedBefore_iff a b).mp before with ⟨isDir, file⟩ | ⟨-, names⟩
  · rw [kind a left, ← kind b right, file] at isDir
    contradiction
  · exact Std.lt_of_le_of_ne names apart

/-- What holds of a node at the end of these names: only the root is one, every other node has its
file, children are kept under their own names, and they are shown by kind, then by name. -/
structure InShape (n : ArtifactNode) (names : List String) : Prop where
  isRoot : n.isRoot = true ↔ names = []
  file : names ≠ [] → n.file ≠ none
  isDir : n.children ≠ none → n.isDir = true
  named : ∀ entry ∈ n.children.getD [], entry.2.name = entry.1
  shown : n.listing.Perm ((n.children.getD []).map (·.2))
  order : ∃ directories files, n.listing = directories ++ files ∧
    (∀ d ∈ directories, d.isDir = true) ∧ (∀ f ∈ files, f.isDir = false) ∧
    (directories.map (·.name)).Pairwise (· < ·) ∧ (files.map (·.name)).Pairwise (· < ·)

theorem PlacedAt.file_ne_none {n : ArtifactNode} {names : List String} (placed : n.PlacedAt names)
    (inner : names ≠ []) : n.file ≠ none := by
  obtain ⟨f, file, -⟩ := placed.file _ (List.getLast?_eq_some_getLast inner)
  rw [file]
  exact Option.some_ne_none f

theorem distinct_listing {n : ArtifactNode} {names : List String} (placed : n.PlacedAt names)
    (named : ∀ entry ∈ n.children.getD [], entry.2.name = entry.1) :
    (n.listing.map (·.name)).Nodup := by
  have keys : ((n.children.getD []).map (·.2)).map (·.name) = (n.children.getD []).map (·.1) := by
    rw [List.map_map]
    exact List.map_congr_left named
  rw [(n.listing_perm.map (·.name)).nodup_iff, keys]
  exact placed.ascending.imp String.ne_of_lt

theorem Sound.inShape {t n : ArtifactNode} {names : List String} (sound : t.Sound)
    (found : t.descend? names = some n) : n.InShape names := by
  have placed := sound names n found
  have named : ∀ entry ∈ n.children.getD [], entry.2.name = entry.1 := fun entry member =>
    (sound.child found member).name_eq
  have distinct := distinct_listing placed named
  have ascend (dir : Bool) (keep : ArtifactNode → Bool) (kind : ∀ n, keep n = true → n.isDir = dir) :
      ((n.listing.filter keep).map (·.name)).Pairwise (· < ·) :=
    names_ascend (n.listing_ordered.filter keep)
      (distinct.sublist (List.filter_sublist.map _))
      fun node member => kind node (List.mem_filter.mp member).2
  exact {
    isRoot := placed.isRoot
    file := placed.file_ne_none
    isDir := placed.isDir
    named
    shown := n.listing_perm
    order := by
      refine ⟨_, _, eq_filter_append_filter n.listing_ordered, ?_, ?_,
        ascend true _ fun _ dir => dir, ascend false _ fun _ file => by simpa using file⟩
      · exact fun d member => (List.mem_filter.mp member).2
      · exact fun f member => by simpa using (List.mem_filter.mp member).2 }

end RunBoard.ArtifactNode
