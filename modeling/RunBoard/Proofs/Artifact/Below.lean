import Mathlib.Data.List.Basic
import RunBoard.Proofs.Artifact.NormalForm

namespace RunBoard.Path

/-- Slashes and nothing else, up to a scheme. -/
abbrev IsBareRoot (root : String) : Prop :=
  (splitScheme root.toList).2 ≠ [] ∧ (splitScheme root.toList).2.all (· = '/') = true

theorem normalizeChars_below (root : String) {path : List Char} (some_piece : pieces path ≠ []) :
    normalizeChars (root.toList ++ '/' :: path) = normalizeChars root.toList ++
      ((if IsBareRoot root then [] else ['/']) ++ joined (pieces path)) := by
  rw [normalizeChars_eq, normalizeChars_eq, splitScheme_append_slash, pieces_append_slash]
  unfold IsBareRoot
  generalize (splitScheme root.toList).2 = rest
  have slashes : pieces rest = [] ↔ rest.all (· = '/') = true := by simp [pieces_eq_nil_iff]
  by_cases empty : rest = []
  · subst empty
    simp [leading, joined, pieces]
  · have first : leading (rest ++ '/' :: path) = leading rest := by
      rw [leading, List.head?_append_of_ne_nil _ empty, leading]
    by_cases bare : pieces rest = []
    · rw [if_pos ⟨empty, slashes.mp bare⟩]
      simp [first, bare, joined]
    · rw [if_neg fun both => bare (slashes.mpr both.2)]
      simp [first, joined_append bare some_piece]

section Names

variable {names : List String}

theorem words_of_names (whole : ∀ name ∈ names, name ≠ "" ∧ '/' ∉ name.toList) :
    ∀ word ∈ names.map String.toList, word ≠ [] ∧ '/' ∉ word := by
  intro word member
  obtain ⟨name, listed, rfl⟩ := List.mem_map.mp member
  exact ⟨by simpa using (whole name listed).1, (whole name listed).2⟩

theorem normalize_names (whole : ∀ name ∈ names, name ≠ "" ∧ '/' ∉ name.toList) :
    normalize ("/".intercalate names) = "/".intercalate names := by
  rw [normalize, toList_intercalate, (tidy_joined (words_of_names whole)).normalizeChars_eq,
    ← toList_intercalate, String.ofList_toList]

theorem relative?_below (root : String) (some_name : names ≠ [])
    (whole : ∀ name ∈ names, name ≠ "" ∧ '/' ∉ name.toList) :
    relative? (root ++ "/" ++ "/".intercalate names) root =
      if IsBareRoot root then none else some ("/".intercalate names) := by
  have words := words_of_names whole
  have split := pieces_joined words
  have source : (root ++ "/" ++ "/".intercalate names).toList =
      root.toList ++ '/' :: joined (names.map String.toList) := by
    rw [String.toList_append, toList_intercalate, String.toList_append]
    simp
  have some_word : names.map String.toList ≠ [] := by simpa using some_name
  have prefixed := List.isPrefixOf?_eq_some_iff_append_eq.mpr
    (normalizeChars_below root (split.symm ▸ some_word)).symm
  rw [relative?, source, prefixed, split]
  by_cases bare : IsBareRoot root
  · obtain ⟨c, rest, other, starts⟩ := exists_cons_of_joined some_word words
    rw [if_pos bare, if_pos bare, starts, List.nil_append]
    split
    · rename_i same
      exact absurd (Option.some.inj same) (List.cons_ne_nil c rest)
    · rename_i tail same
      exact absurd (List.cons.inj (Option.some.inj same)).1 other
    · rfl
  · rw [if_neg bare, if_neg bare, ← toList_intercalate]
    exact congrArg some String.ofList_toList

/-- A path below a root is found again in its source, and the versions there belong to it, unless the
root is bare. -/
theorem found_below_unless_bare (root : String) (some_name : names ≠ [])
    (whole : ∀ name ∈ names, name ≠ "" ∧ '/' ∉ name.toList) (versions : List ModelVersion) :
    let path := "/".intercalate names
    relative? (root ++ "/" ++ path) root = (if IsBareRoot root then none else some path) ∧
      ∀ version ∈ versions, version.source = root ++ "/" ++ path →
        (version ∈ versionsAt versions root path ↔ ¬IsBareRoot root) := by
  intro path
  have found := relative?_below root some_name whole
  refine ⟨found, fun version member below => ?_⟩
  rw [versionsAt, List.mem_filter, below, found, normalize_names whole]
  by_cases bare : IsBareRoot root <;> simp [bare, member]

end Names

theorem found_below_slashed_root :
    let names := ["a:b", "model"]
    (names ≠ [] ∧ ∀ name ∈ names, name ≠ "" ∧ '/' ∉ name.toList) ∧
      relative? ("dbfs:/runs//" ++ "/" ++ "/".intercalate names) "dbfs:/runs//" =
        some ("/".intercalate names) := by
  intro names
  have some_name : names ≠ [] := by decide
  have whole : ∀ name ∈ names, name ≠ "" ∧ '/' ∉ name.toList := by decide
  refine ⟨⟨some_name, whole⟩, ?_⟩
  have found := (found_below_unless_bare "dbfs:/runs//" some_name whole []).1
  rwa [if_neg (by decide)] at found

/-- The place `/model` below the root `/` is not found. -/
theorem lone_slash_root_misses_model :
    relative? ("/" ++ "/" ++ "/".intercalate ["model"]) "/" ≠ some ("/".intercalate ["model"]) := by
  decide +kernel

end RunBoard.Path
