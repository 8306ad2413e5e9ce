import Mathlib.Data.List.Basic
import RunBoard.Proofs.Artifact.Canonical

namespace RunBoard.Path

/-- No slash at either end, and no two in a row. -/
def Slim (path : String) : Prop :=
  path.toList.head? ≠ some '/' ∧ path.toList.getLast? ≠ some '/' ∧ ¬['/', '/'] <:+: path.toList

theorem relative?_eq_some_iff (source root below : String) :
    relative? source root = some below ↔
      normalize source = normalize root ++ "/" ++ below ∨
        below = "" ∧ normalize source = normalize root := by
  have chars : normalize source = normalize root ++ "/" ++ below ↔
      normalizeChars root.toList ++ '/' :: below.toList = normalizeChars source.toList := by
    rw [← String.toList_inj, eq_comm]
    simp [normalize]
  have alike : normalize source = normalize root ↔
      normalizeChars root.toList ++ [] = normalizeChars source.toList := by
    rw [← String.toList_inj, eq_comm]
    simp [normalize]
  rw [chars, alike, ← List.isPrefixOf?_eq_some_iff_append_eq, ← List.isPrefixOf?_eq_some_iff_append_eq,
    relative?]
  constructor
  · intro found
    split at found
    · rename_i whole
      exact .inr ⟨(Option.some.inj found).symm, whole⟩
    · rename_i rest tail
      obtain rfl := Option.some.inj found
      rw [String.toList_ofList]
      exact .inl tail
    · contradiction
  · rintro (tail | ⟨rfl, whole⟩)
    · rw [tail]
      exact congrArg some String.ofList_toList
    · rw [whole]

theorem length_squeeze_le (path : List Char) : (squeeze path).length ≤ path.length := by
  fun_induction squeeze path with
  | case1 rest ih => exact Nat.le_succ_of_le ih
  | case2 c rest single ih => exact Nat.succ_le_succ ih
  | case3 => exact Nat.le_refl 0

theorem length_collapsed_le (path : List Char) :
    (leading path ++ joined (pieces path)).length ≤ path.length := by
  have shorter := length_squeeze_le path
  rw [squeeze_eq, List.length_append] at shorter
  omega

theorem tidy_collapsed (path : List Char) : Tidy (leading path ++ joined (pieces path)) := by
  rw [Tidy, leading_collapsed, pieces_collapsed]

theorem Tidy.length_le {path other : List Char} (tidy : Tidy path)
    (first : leading other = leading path) (same : pieces other = pieces path) :
    path.length ≤ other.length := by
  have shorter := length_collapsed_le other
  rwa [first, same, tidy] at shorter

theorem Tidy.single {path : List Char} (tidy : Tidy path) : ¬['/', '/'] <:+: path := by
  rintro ⟨before, after, rfl⟩
  have split : before ++ ['/', '/'] ++ after = before ++ '/' :: '/' :: after := by simp
  rw [split] at tidy
  have first : leading (before ++ '/' :: after) = leading (before ++ '/' :: '/' :: after) := by
    cases before <;> rfl
  have same : pieces (before ++ '/' :: after) = pieces (before ++ '/' :: '/' :: after) := by
    rw [pieces_append_slash, pieces_append_slash, pieces_slash]
  have shorter := tidy.length_le first same
  simp only [List.length_append, List.length_cons] at shorter
  omega

theorem Tidy.final {before : List Char} (tidy : Tidy (before ++ ['/'])) : before = [] := by
  cases before with
  | nil => rfl
  | cons c before =>
    have same : pieces (c :: before) = pieces (c :: before ++ ['/']) := by
      rw [pieces_append_slash]
      exact (List.append_nil _).symm
    have first : leading (c :: before) = leading (c :: before ++ ['/']) := rfl
    have shorter := tidy.length_le first same
    simp only [List.length_append, List.length_cons] at shorter
    omega

theorem Tidy.slim {before : List Char} {below : String} (tidy : Tidy (before ++ '/' :: below.toList)) :
    Slim below := by
  refine ⟨fun first => ?_, fun last => ?_, fun inner => ?_⟩
  · obtain ⟨rest, starts⟩ := List.head?_eq_some_iff.mp first
    rw [starts] at tidy
    exact tidy.single ⟨before, rest, by simp⟩
  · obtain ⟨early, ends⟩ := List.getLast?_eq_some_iff.mp last
    have split : before ++ '/' :: (early ++ ['/']) = (before ++ '/' :: early) ++ ['/'] := by simp
    rw [ends, split] at tidy
    simpa using tidy.final
  · exact tidy.single (inner.trans ⟨before ++ ['/'], [], by simp⟩)

theorem splitScheme_normalize (path : String) :
    splitScheme (normalize path).toList =
      ((schemeOf path).toList, (restOf (normalize path)).toList) := by
  rw [← schemeOf_normalize, schemeOf, restOf, String.toList_ofList, String.toList_ofList]

theorem tidy_restOf_normalize (path : String) : Tidy (restOf (normalize path)).toList := by
  rw [toList_restOf_normalize]
  exact tidy_collapsed _

theorem restOf_below {source root below : String}
    (within : normalize source = normalize root ++ "/" ++ below) :
    (restOf (normalize source)).toList =
      (restOf (normalize root)).toList ++ '/' :: below.toList := by
  have split := splitScheme_normalize source
  have chars : (normalize source).toList = (normalize root).toList ++ '/' :: below.toList := by
    simp [within]
  rw [chars, splitScheme_append_slash, splitScheme_normalize] at split
  simp only [Prod.mk.injEq] at split
  exact split.2.symm

theorem slim_of_relative? {source root below : String}
    (found : relative? source root = some below) : Slim below := by
  rcases (relative?_eq_some_iff ..).mp found with within | ⟨rfl, -⟩
  · have tidy := tidy_restOf_normalize source
    rw [restOf_below within] at tidy
    exact tidy.slim
  · simp [Slim]

theorem segments_of_relative? {source root below : String}
    (found : relative? source root = some below) :
    segments (restOf source) = segments (restOf root) ++ segments below := by
  rw [← segments_restOf_normalize source, ← segments_restOf_normalize root]
  rcases (relative?_eq_some_iff ..).mp found with within | ⟨rfl, same⟩
  · rw [segments, restOf_below within, pieces_append_slash, List.map_append]
    rfl
  · rw [same]
    exact (List.append_nil _).symm

/-- A source matches a root exactly when its normal form is that of the root or goes on after it with a
slash; what is left is slim, and only the normal forms count. A segment that merely extends the last
one of the root does not match. -/
theorem match_at_segment_ends (source root : String) :
    (∀ below, relative? source root = some below ↔
        normalize source = normalize root ++ "/" ++ below ∨
          below = "" ∧ normalize source = normalize root) ∧
      (∀ below, relative? source root = some below → Slim below) ∧
      relative? source root = relative? (normalize source) (normalize root) ∧
      ∀ shared last more rest,
        segments (restOf root) = shared ++ [last] →
          segments (restOf source) = shared ++ (last ++ more) :: rest → more ≠ "" →
            relative? source root = none := by
  refine ⟨relative?_eq_some_iff source root, fun _ => slim_of_relative?, ?_, ?_⟩
  · apply Option.ext
    intro below
    rw [relative?_eq_some_iff, relative?_eq_some_iff, normalize_normalize, normalize_normalize]
  · intro shared last more rest ofRoot ofSource some_char
    cases found : relative? source root with
    | none => rfl
    | some below =>
      have split := segments_of_relative? found
      rw [ofRoot, ofSource, List.append_assoc, List.append_cancel_left_eq, List.singleton_append,
        List.cons.injEq] at split
      have extended : last ++ more = last := split.1
      exact absurd (by simpa using extended) some_char

theorem match_ends_before_neighbour :
    let root := "dbfs:///run/artifacts/"
    let neighbour := "dbfs:/run/artifactsX//model"
    (relative? "dbfs:/run//artifacts/model/" root = some "model" ∧ Slim "model") ∧
      (segments (restOf root) = ["run"] ++ ["artifacts"] ∧
        segments (restOf neighbour) = ["run"] ++ ("artifacts" ++ "X") :: ["model"] ∧ "X" ≠ "") ∧
      relative? neighbour root = none := by
  intro root neighbour
  have found : relative? "dbfs:/run//artifacts/model/" root = some "model" := by decide +kernel
  have ofRoot : segments (restOf root) = ["run"] ++ ["artifacts"] := by decide +kernel
  have ofNeighbour : segments (restOf neighbour) = ["run"] ++ ("artifacts" ++ "X") :: ["model"] := by
    decide +kernel
  have some_char : "X" ≠ "" := by decide
  obtain ⟨-, slim, -, -⟩ := match_at_segment_ends "dbfs:/run//artifacts/model/" root
  obtain ⟨-, -, -, extended⟩ := match_at_segment_ends neighbour root
  exact ⟨⟨found, slim "model" found⟩, ⟨ofRoot, ofNeighbour, some_char⟩,
    extended ["run"] "artifacts" "X" ["model"] ofRoot ofNeighbour some_char⟩

end RunBoard.Path
