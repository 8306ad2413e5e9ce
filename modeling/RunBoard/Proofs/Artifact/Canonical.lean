import RunBoard.Proofs.Artifact.NormalForm

namespace RunBoard.Path

def IsSchemeName (name : String) : Prop :=
  name ≠ "" ∧ ∀ c ∈ name.toList, c.isAlphanum = true ∨ c = '+' ∨ c = '-' ∨ c = '.'

/-- A path divided into scheme and rest, at its first colon if the text before it names a scheme. -/
inductive Divided : String → String → String → Prop
  | atColon {name rest : String} (first : ':' ∉ name.toList) (named : IsSchemeName name) :
    Divided (name ++ ":" ++ rest) (name ++ ":") rest
  | notNamed {name rest : String} (first : ':' ∉ name.toList) (unnamed : ¬IsSchemeName name) :
    Divided (name ++ ":" ++ rest) "" (name ++ ":" ++ rest)
  | noColon {path : String} (absent : ':' ∉ path.toList) : Divided path "" path

def schemeOf (path : String) : String := String.ofList (splitScheme path.toList).1

def restOf (path : String) : String := String.ofList (splitScheme path.toList).2

abbrev StartsWithSlash (path : String) : Prop := path.toList.head? = some '/'

theorem isSchemeName_iff (name : String) :
    IsSchemeName name ↔ name.toList ≠ [] ∧ name.toList.all isSchemeChar = true := by
  simp [IsSchemeName, isSchemeChar, or_assoc]

theorem toList_colon (name rest : String) :
    (name ++ ":" ++ rest).toList = name.toList ++ ':' :: rest.toList := by simp

theorem Divided.eq {path scheme rest : String} (divided : Divided path scheme rest) :
    scheme = schemeOf path ∧ rest = restOf path := by
  unfold schemeOf restOf
  cases divided with
  | @atColon name rest first named =>
    rw [toList_colon, splitScheme_colon first, if_pos ((isSchemeName_iff name).mp named)]
    exact ⟨by simp, String.ofList_toList.symm⟩
  | @notNamed name rest first unnamed =>
    rw [toList_colon, splitScheme_colon first, if_neg (unnamed ∘ (isSchemeName_iff name).mpr),
      ← toList_colon]
    exact ⟨rfl, String.ofList_toList.symm⟩
  | noColon absent =>
    rw [splitScheme_of_not_mem absent]
    exact ⟨rfl, String.ofList_toList.symm⟩

theorem exists_divided (path : String) : ∃ scheme rest, Divided path scheme rest := by
  by_cases colon : ':' ∈ path.toList
  · obtain ⟨name, rest, split, first⟩ := List.eq_append_cons_of_mem colon
    obtain rfl : path = String.ofList name ++ ":" ++ String.ofList rest := by
      apply String.toList_inj.mp
      rw [split, toList_colon, String.toList_ofList, String.toList_ofList]
    have first : ':' ∉ (String.ofList name).toList := by rwa [String.toList_ofList]
    by_cases named : IsSchemeName (String.ofList name)
    · exact ⟨_, _, .atColon first named⟩
    · exact ⟨_, _, .notNamed first named⟩
  · exact ⟨_, _, .noColon colon⟩

theorem divided_iff (path scheme rest : String) :
    Divided path scheme rest ↔ scheme = schemeOf path ∧ rest = restOf path := by
  refine ⟨Divided.eq, ?_⟩
  rintro ⟨rfl, rfl⟩
  obtain ⟨scheme, rest, divided⟩ := exists_divided path
  obtain ⟨rfl, rfl⟩ := divided.eq
  exact divided

theorem exists_of_collapsed {path word rest : List Char}
    (collapsed : leading path ++ joined (pieces path) = word ++ rest) (noSlash : '/' ∉ word) :
    ∃ tail, path = word ++ tail := by
  induction word generalizing path with
  | nil => exact ⟨path, rfl⟩
  | cons c word ih =>
    rw [List.mem_cons, not_or] at noSlash
    cases path with
    | nil => contradiction
    | cons d path =>
      by_cases slash : d = '/'
      · subst slash
        exact absurd (List.cons.inj collapsed).1 noSlash.1
      · have first : leading (d :: path) = [] := by simp [leading, slash]
        rw [joined_pieces_cons slash, first, List.nil_append, List.cons_append,
          List.cons.injEq] at collapsed
        obtain ⟨rfl, later⟩ := collapsed
        by_cases bare : pieces path = []
        · rw [if_pos bare, bare] at later
          obtain ⟨rfl, -⟩ := List.append_eq_nil_iff.mp later.symm
          exact ⟨path, rfl⟩
        · rw [if_neg bare] at later
          obtain ⟨tail, rfl⟩ := ih later noSlash.2
          exact ⟨tail, rfl⟩

theorem splitScheme_collapsed {path : List Char} (unnamed : splitScheme path = ([], path)) :
    splitScheme (leading path ++ joined (pieces path)) = ([], leading path ++ joined (pieces path)) := by
  rcases splitScheme_cases (leading path ++ joined (pieces path)) with
    ⟨name, rest, collapsed, first, named, split⟩ | split
  · have noSlash := slash_not_mem_scheme (leading path ++ joined (pieces path))
    rw [split] at noSlash
    rw [List.append_cons] at collapsed
    obtain ⟨tail, rfl⟩ := exists_of_collapsed collapsed noSlash
    rw [← List.append_cons, splitScheme_colon first, if_pos named] at unnamed
    simp at unnamed
  · exact split

theorem splitScheme_normalizeChars (path : List Char) :
    splitScheme (normalizeChars path) =
      ((splitScheme path).1, leading (splitScheme path).2 ++ joined (pieces (splitScheme path).2)) := by
  rw [normalizeChars_eq]
  rcases splitScheme_cases path with ⟨name, rest, rfl, first, named, split⟩ | split <;> rw [split]
  · rw [← List.append_cons, splitScheme_colon first, if_pos named]
  · exact splitScheme_collapsed split

theorem leading_collapsed (path : List Char) :
    leading (leading path ++ joined (pieces path)) = leading path := by
  by_cases slash : path.head? = some '/'
  · simp [leading, slash]
  · have first : leading path = [] := if_neg slash
    rw [first, List.nil_append]
    exact leading_joined fun _ => word_of_mem_pieces

theorem pieces_collapsed (path : List Char) :
    pieces (leading path ++ joined (pieces path)) = pieces path := by
  have words : pieces (joined (pieces path)) = pieces path := pieces_joined fun _ => word_of_mem_pieces
  by_cases slash : path.head? = some '/'
  · simp [leading, slash, pieces_slash, words]
  · simp [leading, slash, words]

theorem schemeOf_normalize (path : String) : schemeOf (normalize path) = schemeOf path := by
  rw [schemeOf, normalize, String.toList_ofList, splitScheme_normalizeChars]
  rfl

theorem toList_restOf_normalize (path : String) : (restOf (normalize path)).toList =
    leading (restOf path).toList ++ joined (pieces (restOf path).toList) := by
  simp only [restOf, normalize, String.toList_ofList, splitScheme_normalizeChars]

theorem startsWithSlash_iff (path : String) : StartsWithSlash path ↔ leading path.toList = ['/'] := by
  simp [leading]

theorem startsWithSlash_restOf_normalize (path : String) :
    StartsWithSlash (restOf (normalize path)) ↔ StartsWithSlash (restOf path) := by
  rw [startsWithSlash_iff, startsWithSlash_iff, toList_restOf_normalize, leading_collapsed]

theorem segments_restOf_normalize (path : String) :
    segments (restOf (normalize path)) = segments (restOf path) := by
  rw [segments, segments, toList_restOf_normalize, pieces_collapsed]

theorem normalize_eq (path : String) :
    normalize path = schemeOf path ++ (if StartsWithSlash (restOf path) then "/" else "") ++
      "/".intercalate (segments (restOf path)) := by
  have rest : (restOf path).toList = (splitScheme path.toList).2 := String.toList_ofList
  have slash : (if StartsWithSlash (restOf path) then "/" else "").toList =
      leading (splitScheme path.toList).2 := by
    rw [← rest, leading]
    split <;> rfl
  have words : (segments (restOf path)).map String.toList = pieces (splitScheme path.toList).2 := by
    simp [segments, rest]
  apply String.toList_inj.mp
  rw [normalize, String.toList_ofList, normalizeChars_eq, String.toList_append, String.toList_append,
    toList_intercalate, slash, words, schemeOf, String.toList_ofList, List.append_assoc]

theorem normalize_normalize (path : String) : normalize (normalize path) = normalize path := by
  rw [normalize_eq (normalize path), schemeOf_normalize, segments_restOf_normalize]
  simp only [startsWithSlash_restOf_normalize]
  exact (normalize_eq path).symm

theorem normalize_eq_iff (path other : String) :
    normalize path = normalize other ↔
      schemeOf path = schemeOf other ∧
        (StartsWithSlash (restOf path) ↔ StartsWithSlash (restOf other)) ∧
        segments (restOf path) = segments (restOf other) := by
  constructor
  · intro same
    rw [← schemeOf_normalize path, ← startsWithSlash_restOf_normalize path,
      ← segments_restOf_normalize path, same, schemeOf_normalize, startsWithSlash_restOf_normalize,
      segments_restOf_normalize]
    exact ⟨rfl, Iff.rfl, rfl⟩
  · rintro ⟨scheme, slash, segments⟩
    rw [normalize_eq path, normalize_eq other, scheme, segments]
    simp only [slash]

/-- The normal form of a path is its scheme, a slash where the rest starts with one, and the segments
of the rest with one slash between any two. It is its own normal form, and two paths share it exactly
when they agree in these three. -/
theorem normalize_canonical (path : String) :
    (∀ scheme rest, Divided path scheme rest ↔ scheme = schemeOf path ∧ rest = restOf path) ∧
      normalize path = schemeOf path ++ (if StartsWithSlash (restOf path) then "/" else "") ++
        "/".intercalate (segments (restOf path)) ∧
      normalize (normalize path) = normalize path ∧
      ∀ other, normalize path = normalize other ↔
        schemeOf path = schemeOf other ∧
          (StartsWithSlash (restOf path) ↔ StartsWithSlash (restOf other)) ∧
          segments (restOf path) = segments (restOf other) :=
  ⟨divided_iff path, normalize_eq path, normalize_normalize path, normalize_eq_iff path⟩

end RunBoard.Path
