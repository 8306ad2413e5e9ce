import RunBoard.Proofs.Artifact.Filling
import RunBoard.Proofs.Artifact.Segments

namespace RunBoard

namespace Table

theorem lookup_eq_some_iff_mem {β : Type} {items : List (String × β)}
    (ascending : (items.map (·.1)).Pairwise (· < ·)) (key : String) (value : β) :
    items.lookup key = some value ↔ (key, value) ∈ items := by
  rw [List.lookup_eq_some_iff]
  constructor
  · rintro ⟨early, late, rfl, -⟩
    exact List.mem_append_right early List.mem_cons_self
  · intro member
    obtain ⟨early, late, rfl⟩ := List.append_of_mem member
    refine ⟨early, late, rfl, ?_⟩
    intro item before
    rw [List.map_append, List.pairwise_append] at ascending
    have less := ascending.2.2 item.1 (List.mem_map_of_mem before) key (by simp)
    simpa using (String.ne_of_lt less).symm

theorem ascending_toList {β : Type} (table : Table β) :
    (table.toList.map (·.1)).Pairwise (· < ·) := by
  rw [Std.ExtTreeMap.map_fst_toList_eq_keys]
  exact table.keys_lt

theorem lookup_toList {β : Type} (table : Table β) (key : String) :
    table.toList.lookup key = table[key]? := by
  ext value
  rw [lookup_eq_some_iff_mem table.ascending_toList, Std.ExtTreeMap.mem_toList_iff_getElem?_eq_some]

end Table

namespace ArtifactNode

theorem lookup_replaceChild_of_ne {name other : String} (apart : other ≠ name) (node : ArtifactNode)
    (children : List (String × ArtifactNode)) :
    (replaceChild name node children).lookup other = children.lookup other := by
  induction children with
  | nil => rfl
  | cons child rest ih =>
    obtain ⟨own, held⟩ := child
    by_cases here : own = name
    · subst here
      have there : (other == own) = false := by simpa using apart
      simp only [replaceChild, if_pos, List.lookup_cons, there]
    · simp only [replaceChild, if_neg here, List.lookup_cons, ih]

theorem names_replaceChild (name : String) (node : ArtifactNode)
    (children : List (String × ArtifactNode)) :
    (replaceChild name node children).map (·.1) = children.map (·.1) := by
  induction children with
  | nil => rfl
  | cons child rest ih =>
    obtain ⟨own, held⟩ := child
    by_cases here : own = name <;> simp [replaceChild, here, ih]

structure Alike (before after : ArtifactNode) : Prop where
  isRoot : after.isRoot = before.isRoot
  file : after.file = before.file
  names : after.children.map (·.map (·.1)) = before.children.map (·.map (·.1))

theorem child?_fill_cons {files : List ArtifactFile} {name : String} {rest : List String}
    {n tree : ArtifactNode} (filled : fill files (name :: rest) n = .ok tree) :
    (∃ held node, n.child? name = some held ∧ tree.child? name = some node ∧
        fill files rest held = .ok node) ∧
      (∀ other, other ≠ name → tree.child? other = n.child? other) ∧ n.Alike tree := by
  obtain ⟨children, held, node, listed, found, below, rfl⟩ := fill_cons_eq_ok filled
  refine ⟨⟨held, node, ?_, lookup_replaceChild found node, below⟩, ?_, rfl, rfl, ?_⟩
  · rw [child?, listed]
    exact found
  · intro other apart
    rw [child?, child?, listed]
    exact lookup_replaceChild_of_ne apart node children
  · rw [listed, Option.map_some, Option.map_some, names_replaceChild]

theorem descend?_cons_of_child? {n child : ArtifactNode} {name : String}
    (found : n.child? name = some child) (rest : List String) :
    n.descend? (name :: rest) = child.descend? rest := by
  rw [descend?, found, Option.bind_some]

theorem descend?_append (n : ArtifactNode) (early late : List String) :
    n.descend? (early ++ late) = (n.descend? early).bind (·.descend? late) := by
  induction early generalizing n with
  | nil => rfl
  | cons name rest ih =>
    rw [List.cons_append, descend?, descend?, Option.bind_assoc]
    exact congrArg _ (funext ih)

theorem fill_append {files : List ArtifactFile} {early late : List String} {t t' : ArtifactNode}
    (filled : fill files (early ++ late) t = .ok t') :
    ∃ before after, t.descend? early = some before ∧ t'.descend? early = some after ∧
      fill files late before = .ok after := by
  induction early generalizing t t' with
  | nil => exact ⟨t, t', rfl, rfl, filled⟩
  | cons name rest ih =>
    obtain ⟨⟨held, node, found, kept, below⟩, -⟩ := child?_fill_cons filled
    rw [descend?_cons_of_child? found, descend?_cons_of_child? kept]
    exact ih below

def lastNamed (files : List ArtifactFile) (name : String) : Option ArtifactFile :=
  (files.filter (·.name == name)).getLast?

theorem lookup_leaves (files : List ArtifactFile) (name : String) :
    (leaves files).lookup name = (lastNamed files name).map leaf := by
  rw [leaves, Table.lookup_toList, Table.getElem?_ofPairs, List.filter_map, List.map_map,
    List.getLast?_map]
  rfl

theorem descend?_fill_self {files : List ArtifactFile} {names : List String} {t t' : ArtifactNode}
    (filled : fill files names t = .ok t') :
    ∃ n, t.descend? names = some n ∧ n.isDir = true ∧
      t'.descend? names = some { n with children := some (leaves files) } := by
  rw [← names.append_nil] at filled
  obtain ⟨n, after, found, kept, here⟩ := fill_append filled
  obtain ⟨dir, rfl⟩ := fill_nil_eq_ok here
  exact ⟨n, found, dir, kept⟩

theorem descend?_fill_below {files : List ArtifactFile} {names : List String} {t t' : ArtifactNode}
    (filled : fill files names t = .ok t') (name : String) (rest : List String) :
    t'.descend? (names ++ name :: rest) =
      if rest = [] then (lastNamed files name).map leaf else none := by
  obtain ⟨n, -, -, kept⟩ := descend?_fill_self filled
  rw [descend?_append, kept, Option.bind_some, descend?, child?, Option.bind_some, lookup_leaves]
  cases lastNamed files name <;> cases rest <;> rfl

theorem descend?_fill_apart {files : List ArtifactFile} {names others : List String}
    {t t' : ArtifactNode} (filled : fill files names t = .ok t') (left : ¬others <+: names)
    (right : ¬names <+: others) : t'.descend? others = t.descend? others := by
  induction names generalizing others t t' with
  | nil => exact absurd List.nil_prefix right
  | cons name rest ih =>
    obtain ⟨⟨held, node, found, kept, below⟩, same, -⟩ := child?_fill_cons filled
    cases others with
    | nil => exact absurd List.nil_prefix left
    | cons other late =>
      by_cases here : other = name
      · subst here
        rw [descend?_cons_of_child? found, descend?_cons_of_child? kept]
        rw [List.cons_prefix_cons] at left right
        exact ih below (fun inside => left ⟨rfl, inside⟩) (fun inside => right ⟨rfl, inside⟩)
      · rw [descend?, descend?, same other here]

theorem descend?_fill_above {files : List ArtifactFile} {early : List String} {name : String}
    {rest : List String} {t t' : ArtifactNode}
    (filled : fill files (early ++ name :: rest) t = .ok t') :
    ∃ before after, t.descend? early = some before ∧ t'.descend? early = some after ∧
      before.Alike after := by
  obtain ⟨before, after, found, kept, below⟩ := fill_append filled
  exact ⟨before, after, found, kept, (child?_fill_cons below).2.2⟩

/-- The walk along the names gets to a node that has no child of the next name. -/
def StopsAt (t : ArtifactNode) (names : List String) (node : ArtifactNode) (name : String) : Prop :=
  ∃ early late, names = early ++ name :: late ∧ t.descend? early = some node ∧
    node.child? name = none

theorem not_stopsAt_nil (t node : ArtifactNode) (name : String) : ¬t.StopsAt [] node name := by
  rintro ⟨early, late, split, -⟩
  simp at split

theorem stopsAt_cons_iff {t : ArtifactNode} {first : String} (rest : List String)
    (node : ArtifactNode) (name : String) :
    t.StopsAt (first :: rest) node name ↔
      (node = t ∧ name = first ∧ t.child? first = none) ∨
        ∃ child, t.child? first = some child ∧ child.StopsAt rest node name := by
  constructor
  · rintro ⟨early, late, split, found, missing⟩
    cases early with
    | nil =>
      obtain ⟨rfl, rfl⟩ := List.cons.inj split
      obtain rfl := Option.some.inj found
      exact .inl ⟨rfl, rfl, missing⟩
    | cons own early =>
      obtain ⟨rfl, rfl⟩ := List.cons.inj split
      obtain ⟨child, held, below⟩ := Option.bind_eq_some_iff.mp found
      exact .inr ⟨child, held, early, late, rfl, below, missing⟩
  · rintro (⟨rfl, rfl, missing⟩ | ⟨child, held, early, late, rfl, below, missing⟩)
    · exact ⟨[], rest, rfl, rfl, missing⟩
    · exact ⟨first :: early, late, rfl, (descend?_cons_of_child? held early).trans below, missing⟩

/-- What is wrong with the names when there is this fault. -/
def Faulty (t : ArtifactNode) (names : List String) : ListingFault → Prop
  | .parentNotListed => ∃ node name, t.StopsAt names node name ∧ node.children = none
  | .noSuchEntry => ∃ node name, t.StopsAt names node name ∧ node.children ≠ none
  | .notDirectory => ∃ node, t.descend? names = some node ∧ node.isDir = false

theorem fill_eq_error_iff (files : List ArtifactFile) (names : List String) (t : ArtifactNode)
    (fault : ListingFault) : fill files names t = .error fault ↔ t.Faulty names fault := by
  induction names generalizing t with
  | nil =>
    rw [fill]
    cases fault <;> cases dir : t.isDir <;> simp [Faulty, not_stopsAt_nil, descend?, dir]
  | cons name rest ih =>
    rw [fill]
    cases children : t.children with
    | none =>
      have missing : t.child? name = none := by rw [child?, children]; rfl
      cases fault <;> simp [Faulty, stopsAt_cons_iff, missing, descend?, children]
    | some held =>
      cases found : held.lookup name with
      | none =>
        have missing : t.child? name = none := by rw [child?, children]; exact found
        cases fault <;> simp [Faulty, stopsAt_cons_iff, missing, descend?, children, found]
      | some child =>
        have here : t.child? name = some child := by rw [child?, children]; exact found
        have below := ih child
        cases filled : fill files rest child <;> rw [filled] at below <;> cases fault <;>
          simpa [Faulty, stopsAt_cons_iff, here, descend?, children, found, filled] using below

theorem exists_lastNamed {files : List ArtifactFile} {f : ArtifactFile} (member : f ∈ files) :
    ∃ last ∈ files, last.name = f.name ∧ lastNamed files f.name = some last := by
  cases found : lastNamed files f.name with
  | none =>
    have none_named := List.getLast?_eq_none_iff.mp found
    have named : f ∈ files.filter (·.name == f.name) := List.mem_filter.mpr ⟨member, by simp⟩
    rw [none_named] at named
    contradiction
  | some last =>
    have among := List.mem_filter.mp (List.mem_of_getLast? found)
    exact ⟨last, among.1, by simpa using among.2, rfl⟩

theorem find?_fill_name {files : List ArtifactFile} {path : String} {t t' : ArtifactNode}
    (filled : fill files (Path.segments path) t = .ok t') {f : ArtifactFile} (named : f.name ≠ "") :
    t'.find? (path ++ "/" ++ f.name) = (lastNamed files f.name).map leaf := by
  rw [find?, Path.segments_append_slash, f.segments_name named, descend?_fill_below filled]
  exact if_pos rfl

/-- What a listing of the directory at a path makes of a tree. -/
structure Listed (path : String) (files : List ArtifactFile) (t t' : ArtifactNode) : Prop where
  directory : ∃ n children, t.find? path = some n ∧
    t'.find? path = some { n with children := some children } ∧
    (children.map (·.1)).Pairwise (· < ·) ∧
    ∀ name, children.lookup name = (lastNamed files name).map leaf
  entry : ∀ f ∈ files, f.name ≠ "" →
    ∃ last ∈ files, last.name = f.name ∧ lastNamed files f.name = some last ∧
      t'.find? (path ++ "/" ++ f.name) = some (leaf last)
  below : ∀ (q name : String) (rest : List String),
    Path.segments q = Path.segments path ++ name :: rest →
    t'.find? q = if rest = [] then (lastNamed files name).map leaf else none
  apart : ∀ q : String, ¬Path.segments q <+: Path.segments path →
    ¬Path.segments path <+: Path.segments q → t'.find? q = t.find? q
  above : ∀ (q name : String) (rest : List String),
    Path.segments path = Path.segments q ++ name :: rest →
    ∃ before after, t.find? q = some before ∧ t'.find? q = some after ∧ before.Alike after

theorem listed_of_fill {path : String} {files : List ArtifactFile} {t t' : ArtifactNode}
    (filled : fill files (Path.segments path) t = .ok t') : Listed path files t t' where
  directory := by
    obtain ⟨n, found, -, kept⟩ := descend?_fill_self filled
    exact ⟨n, leaves files, found, kept, Table.ascending_toList _, lookup_leaves files⟩
  entry := by
    intro f member named
    obtain ⟨last, among, same, found⟩ := exists_lastNamed member
    refine ⟨last, among, same, found, ?_⟩
    rw [find?_fill_name filled named, found]
    rfl
  below := by
    intro q name rest split
    rw [find?, split]
    exact descend?_fill_below filled name rest
  apart := fun q left right => descend?_fill_apart filled left right
  above := by
    intro q name rest split
    rw [split] at filled
    exact descend?_fill_above filled

theorem reason_injective {fault other : ListingFault} :
    fault.reason = other.reason ↔ fault = other := by
  cases fault <;> cases other <;> simp [ListingFault.reason]

/-- A listing is taken exactly for a path that leads to a directory. It fills this directory, keeps the
shape of what is above it and leaves the rest; and when it is refused, the reason tells whether the
walk stops at a node that was never listed, stops for want of an entry, or ends at a file. -/
theorem listing_updates_directory (t : ArtifactNode) (run : String) (path : Option String)
    (files : List ArtifactFile) :
    ((t.withListing run path files).isOk = true ↔
      ∃ n, t.find? (path.getD "") = some n ∧ n.isDir = true) ∧
    (∀ t', t.withListing run path files = .ok t' → Listed (path.getD "") files t t') ∧
    ∀ e, t.withListing run path files = .error e →
      (e.fault.reason = "parent directory has not been listed" ↔
        ∃ node name, t.StopsAt (Path.segments (path.getD "")) node name ∧ node.children = none) ∧
      (e.fault.reason = "no such entry" ↔
        ∃ node name, t.StopsAt (Path.segments (path.getD "")) node name ∧ node.children ≠ none) ∧
      (e.fault.reason = "not a directory" ↔
        ∃ node, t.find? (path.getD "") = some node ∧ node.isDir = false) := by
  refine ⟨t.isOk_withListing_iff run path files, ?_, ?_⟩
  · intro t' listed
    exact listed_of_fill (withListing_eq_ok_iff.mp listed)
  · intro e fails
    obtain ⟨-, -, filled⟩ := withListing_eq_error_iff.mp fails
    have fault (other : ListingFault) : e.fault.reason = other.reason ↔
        t.Faulty (Path.segments (path.getD "")) other := by
      rw [reason_injective, ← fill_eq_error_iff files, filled, Except.error.injEq]
    exact ⟨fault .parentNotListed, fault .noSuchEntry, fault .notDirectory⟩

theorem inner_listing_updates_directory :
    let t : ArtifactNode :=
      { root with children := some [("a", leaf (.directory "a")), ("b", leaf (.file "b" 3))] }
    let files : List ArtifactFile := [.file "a/x" 1, .directory "a/x/"]
    (∃ t', t.withListing "run" (some "/a//") files = .ok t' ∧ Listed "/a//" files t t' ∧
      t'.find? "a/x" = some (leaf (.directory "a/x/"))) ∧
    ∃ e, t.withListing "run" (some "b/c") files = .error e ∧
      ∃ node name, t.StopsAt (Path.segments "b/c") node name ∧ node.children = none := by
  intro t files
  obtain ⟨-, updates, -⟩ := listing_updates_directory t "run" (some "/a//") files
  obtain ⟨-, -, reasons⟩ := listing_updates_directory t "run" (some "b/c") files
  have listed : t.withListing "run" (some "/a//") files =
      .ok { t with children := some (replaceChild "a"
        { leaf (.directory "a") with children := some (leaves files) } (t.children.getD [])) } := rfl
  refine ⟨⟨_, listed, updates _ listed, rfl⟩, ⟨"run", "b/c", .parentNotListed⟩, rfl, ?_⟩
  exact (reasons ⟨"run", "b/c", .parentNotListed⟩ rfl).1.mp rfl

end ArtifactNode

end RunBoard
