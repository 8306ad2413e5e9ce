import RunBoard.Proofs.Artifact.Update

namespace RunBoard.ArtifactNode

inductive Apart : List String → List String → Prop
  | parted {name other : String} (rest late : List String) (differ : name ≠ other) :
    Apart (name :: rest) (other :: late)
  | within {rest late : List String} (name : String) (apart : Apart rest late) :
    Apart (name :: rest) (name :: late)

theorem Apart.symm {names others : List String} (apart : Apart names others) : Apart others names := by
  induction apart with
  | parted rest late differ => exact .parted late rest differ.symm
  | within name _ ih => exact .within name ih

theorem apart_of_not_prefix {names others : List String} (left : ¬names <+: others)
    (right : ¬others <+: names) : Apart names others := by
  induction names generalizing others with
  | nil => exact absurd List.nil_prefix left
  | cons name rest ih =>
    cases others with
    | nil => exact absurd List.nil_prefix right
    | cons other late =>
      by_cases same : name = other
      · subst same
        rw [List.cons_prefix_cons] at left right
        have restLeft : ¬rest <+: late := fun start => left ⟨rfl, start⟩
        have restRight : ¬late <+: rest := fun start => right ⟨rfl, start⟩
        exact .within name (ih restLeft restRight)
      · exact .parted rest late same

theorem replaceChild_comm {name other : String} (differ : name ≠ other) (node later : ArtifactNode)
    (children : List (String × ArtifactNode)) :
    replaceChild name node (replaceChild other later children) =
      replaceChild other later (replaceChild name node children) := by
  induction children with
  | nil => rfl
  | cons child rest ih =>
    obtain ⟨own, held⟩ := child
    by_cases here : own = name
    · subst here
      simp [replaceChild, differ]
    · by_cases there : own = other
      · subst there
        simp [replaceChild, here]
      · simp [replaceChild, here, there, ih]

theorem fill_cons_of_lookup {files : List ArtifactFile} {name : String} (rest : List String)
    {n held : ArtifactNode} {children : List (String × ArtifactNode)}
    (listed : n.children = some children) (found : children.lookup name = some held) :
    fill files (name :: rest) n = (fill files rest held).map fun node =>
      { n with children := some (replaceChild name node children) } := by
  rw [fill]
  simp only [listed, found]
  cases fill files rest held <;> rfl

theorem fill_cons_of_ne {files : List ArtifactFile} {name other : String} (differ : name ≠ other)
    (rest : List String) {n : ArtifactNode} {children : List (String × ArtifactNode)}
    (listed : n.children = some children) (node : ArtifactNode) :
    fill files (name :: rest) { n with children := some (replaceChild other node children) } =
      (fill files (name :: rest) n).map fun tree =>
        { tree with children := tree.children.map (replaceChild other node) } := by
  have kept : (replaceChild other node children).lookup name = children.lookup name :=
    lookup_replaceChild_of_ne differ node children
  cases found : children.lookup name with
  | none =>
    rw [found] at kept
    simp only [fill, listed, found, kept]
    rfl
  | some held =>
    rw [found] at kept
    rw [fill_cons_of_lookup rest rfl kept, fill_cons_of_lookup rest listed found]
    cases fill files rest held with
    | error fault => rfl
    | ok filled =>
      simp only [Except.map, Option.map_some]
      rw [replaceChild_comm differ]

section

variable {files more : List ArtifactFile} {names others : List String}

theorem fill_error_of_apart {t t' : ArtifactNode} {fault : ListingFault}
    (apart : Apart names others) (filled : fill more others t = .ok t')
    (fails : fill files names t = .error fault) : fill files names t' = .error fault := by
  induction apart generalizing t t' with
  | @parted name other rest late differ =>
    obtain ⟨children, held, node, listed, found, below, rfl⟩ := fill_cons_eq_ok filled
    rw [fill_cons_of_ne differ rest listed, fails]
    rfl
  | @within rest late name apart ih =>
    obtain ⟨children, held, node, listed, found, below, rfl⟩ := fill_cons_eq_ok filled
    rw [fill_cons_of_lookup rest listed found] at fails
    have failsBelow : fill files rest held = .error fault := by
      cases walk : fill files rest held with
      | error first =>
        rw [walk] at fails
        exact congrArg Except.error (Except.error.inj fails)
      | ok tree =>
        rw [walk] at fails
        contradiction
    rw [fill_cons_of_lookup rest rfl (lookup_replaceChild found node), ih below failsBelow]
    rfl

theorem fill_comm_of_apart {t first second : ArtifactNode} (apart : Apart names others)
    (filled : fill files names t = .ok first) (filledOther : fill more others t = .ok second) :
    ∃ both, fill more others first = .ok both ∧ fill files names second = .ok both := by
  induction apart generalizing t first second with
  | @parted name other rest late differ =>
    obtain ⟨children, held, node, listed, found, below, rfl⟩ := fill_cons_eq_ok filled
    obtain ⟨_, heldOther, nodeOther, same, foundOther, belowOther, rfl⟩ := fill_cons_eq_ok filledOther
    obtain rfl := Option.some.inj (listed.symm.trans same)
    refine ⟨{ t with children := some (replaceChild name node (replaceChild other nodeOther children)) },
      ?_, ?_⟩
    · rw [fill_cons_of_ne differ.symm late listed, filledOther]
      rfl
    · rw [fill_cons_of_ne differ rest listed, filled, replaceChild_comm differ]
      rfl
  | @within rest late name apart ih =>
    obtain ⟨children, held, node, listed, found, below, rfl⟩ := fill_cons_eq_ok filled
    obtain ⟨_, _, nodeOther, same, foundOther, belowOther, rfl⟩ := fill_cons_eq_ok filledOther
    obtain rfl := Option.some.inj (listed.symm.trans same)
    obtain rfl := Option.some.inj (found.symm.trans foundOther)
    obtain ⟨both, filledBoth, filledBoth'⟩ := ih below belowOther
    refine ⟨{ t with children := some (replaceChild name both children) }, ?_, ?_⟩
    · rw [fill_cons_of_lookup late rfl (lookup_replaceChild found node), filledBoth]
      simp only [Except.map, replaceChild_replaceChild]
    · rw [fill_cons_of_lookup rest rfl (lookup_replaceChild found nodeOther), filledBoth']
      simp only [Except.map, replaceChild_replaceChild]

end

/-- The tree after a listing was delivered; one that is refused leaves it as it is. -/
def relisted (t : ArtifactNode) (run : String) (path : Option String) (files : List ArtifactFile) :
    ArtifactNode :=
  match t.withListing run path files with
  | .ok tree => tree
  | .error _ => t

section

variable {t : ArtifactNode} {run : String} {path other : Option String}
  {files more : List ArtifactFile}

theorem relisted_of_ok {tree : ArtifactNode} (listed : t.withListing run path files = .ok tree) :
    t.relisted run path files = tree := by
  rw [relisted, listed]

theorem relisted_of_error {e : ListingError} (fails : t.withListing run path files = .error e) :
    t.relisted run path files = t := by
  rw [relisted, fails]

theorem withListing_error_of_apart {second : ArtifactNode} {e : ListingError}
    (apart : Apart (Path.segments (path.getD "")) (Path.segments (other.getD "")))
    (listed : t.withListing run other more = .ok second)
    (fails : t.withListing run path files = .error e) :
    second.withListing run path files = .error e := by
  rw [withListing_eq_ok_iff] at listed
  rw [withListing_eq_error_iff] at fails ⊢
  obtain ⟨own, place, refused⟩ := fails
  exact ⟨own, place, fill_error_of_apart apart listed refused⟩

theorem withListing_comm_of_apart {first second : ArtifactNode}
    (apart : Apart (Path.segments (path.getD "")) (Path.segments (other.getD "")))
    (listed : t.withListing run path files = .ok first)
    (listedOther : t.withListing run other more = .ok second) :
    ∃ both, first.withListing run other more = .ok both ∧
      second.withListing run path files = .ok both := by
  simp only [withListing_eq_ok_iff] at *
  exact fill_comm_of_apart apart listed listedOther

theorem withListing_relisted_eq_error_iff
    (apart : Apart (Path.segments (path.getD "")) (Path.segments (other.getD ""))) (e : ListingError) :
    (t.relisted run other more).withListing run path files = .error e ↔
      t.withListing run path files = .error e := by
  cases listedOther : t.withListing run other more with
  | error fault => rw [relisted_of_error listedOther]
  | ok second =>
    rw [relisted_of_ok listedOther]
    cases listed : t.withListing run path files with
    | error own => rw [withListing_error_of_apart apart listedOther listed]
    | ok first =>
      obtain ⟨both, -, listedBoth⟩ := withListing_comm_of_apart apart listed listedOther
      rw [listedBoth]
      exact iff_of_false nofun nofun

theorem relisted_comm (apart : Apart (Path.segments (path.getD "")) (Path.segments (other.getD ""))) :
    (t.relisted run path files).relisted run other more =
      (t.relisted run other more).relisted run path files := by
  cases listed : t.withListing run path files with
  | error e =>
    have still : (t.relisted run other more).withListing run path files = .error e :=
      (withListing_relisted_eq_error_iff apart e).mpr listed
    rw [relisted_of_error listed, relisted_of_error still]
  | ok first =>
    cases listedOther : t.withListing run other more with
    | error e =>
      have still : first.withListing run other more = .error e :=
        withListing_error_of_apart apart.symm listed listedOther
      rw [relisted_of_ok listed, relisted_of_error listedOther, relisted_of_error still,
        relisted_of_ok listed]
    | ok second =>
      obtain ⟨both, firstBoth, secondBoth⟩ := withListing_comm_of_apart apart listed listedOther
      rw [relisted_of_ok listed, relisted_of_ok listedOther, relisted_of_ok firstBoth,
        relisted_of_ok secondBoth]

end

/-- Two listings of directories that do not lie in each other come to the same tree in both orders,
and each is taken, or refused for the same reason, whether it comes first or second. -/
theorem apart_listings_commute (t : ArtifactNode) (run : String) (path other : Option String)
    (files more : List ArtifactFile)
    (left : ¬Path.segments (path.getD "") <+: Path.segments (other.getD ""))
    (right : ¬Path.segments (other.getD "") <+: Path.segments (path.getD "")) :
    (t.relisted run path files).relisted run other more =
        (t.relisted run other more).relisted run path files ∧
      (∀ e, (t.relisted run other more).withListing run path files = .error e ↔
        t.withListing run path files = .error e) ∧
      ∀ e, (t.relisted run path files).withListing run other more = .error e ↔
        t.withListing run other more = .error e := by
  have apart := apart_of_not_prefix left right
  exact ⟨relisted_comm apart, withListing_relisted_eq_error_iff apart,
    withListing_relisted_eq_error_iff apart.symm⟩

theorem apart_listings_commute_siblings :
    let models : ArtifactNode :=
      { leaf (.directory "a") with
        children := some [("x", leaf (.directory "a/x")), ("y", leaf (.file "a/y" 3))] }
    let t : ArtifactNode := { root with children := some [("a", models)] }
    let files : List ArtifactFile := [.file "a/x/w" 1, .file "a/x/w" 2]
    let refused : Except ListingError ArtifactNode := .error ⟨"run", "a/y", .notDirectory⟩
    ¬Path.segments "/a//x" <+: Path.segments "a/y" ∧
      ¬Path.segments "a/y" <+: Path.segments "/a//x" ∧
      (t.relisted "run" (some "/a//x") files).relisted "run" (some "a/y") [] =
        (t.relisted "run" (some "a/y") []).relisted "run" (some "/a//x") files ∧
      t.withListing "run" (some "a/y") [] = refused ∧
      (t.relisted "run" (some "/a//x") files).withListing "run" (some "a/y") [] = refused ∧
      ((t.relisted "run" (some "/a//x") files).find? "a/x/w") = some (leaf (.file "a/x/w" 2)) := by
  intro models t files refused
  have left : ¬Path.segments "/a//x" <+: Path.segments "a/y" := by decide
  have right : ¬Path.segments "a/y" <+: Path.segments "/a//x" := by decide
  obtain ⟨same, -, after⟩ :=
    apart_listings_commute t "run" (some "/a//x") (some "a/y") files [] left right
  have before : t.withListing "run" (some "a/y") [] = refused := rfl
  exact ⟨left, right, same, before, (after _).mpr before, rfl⟩

end RunBoard.ArtifactNode
