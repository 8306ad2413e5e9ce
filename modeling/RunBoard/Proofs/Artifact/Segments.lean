import Mathlib.Data.List.Induction
import RunBoard.Artifact.Path

namespace RunBoard

namespace Path

theorem pieces_eq_splitOn (path : List Char) :
    pieces path = (path.splitOn '/').filter (!·.isEmpty) := by
  rw [pieces]
  apply congrArg (List.filter _)
  induction path with
  | nil => rfl
  | cons c rest ih =>
    rw [List.splitOn_cons_eq_if_modifyHead, ← ih]
    by_cases slash : c = '/' <;> simp [slash]

theorem pieces_append_slash (path rest : List Char) :
    pieces (path ++ '/' :: rest) = pieces path ++ pieces rest := by
  simp only [pieces_eq_splitOn, List.splitOn_append_cons_self, List.filter_append]

theorem pieces_word {word : List Char} (whole : '/' ∉ word) (some_char : word ≠ []) :
    pieces word = [word] := by
  rw [pieces_eq_splitOn, List.splitOn_eq_singleton whole]
  simp [some_char]

theorem slash_not_mem_takeWhile (chars : List Char) : '/' ∉ chars.takeWhile (· != '/') := by
  intro member
  simpa using List.all_eq_true.mp (List.all_takeWhile (p := (· != '/')) (l := chars)) '/' member

theorem exists_last_word (path : List Char) :
    ∃ word, '/' ∉ word ∧ path.reverse.takeWhile (· != '/') = word.reverse ∧
      (path = word ∨ ∃ early, path = early ++ '/' :: word) := by
  have whole := slash_not_mem_takeWhile path.reverse
  have split := List.takeWhile_append_dropWhile (p := (· != '/')) (l := path.reverse)
  have first := List.head?_dropWhile_not (· != '/') path.reverse
  generalize path.reverse.takeWhile (· != '/') = last at whole split ⊢
  generalize path.reverse.dropWhile (· != '/') = rest at split first
  refine ⟨last.reverse, by simpa using whole, last.reverse_reverse.symm, ?_⟩
  have ends : path = rest.reverse ++ last.reverse := by
    rw [← List.reverse_append, split, List.reverse_reverse]
  cases rest with
  | nil => exact .inl ends
  | cons c early =>
    obtain rfl : c = '/' := by simpa using first
    exact .inr ⟨early.reverse, by simpa using ends⟩

theorem getLast?_pieces (path : List Char) :
    (pieces path).getLast?.getD [] =
      ((path.reverse.dropWhile (· == '/')).takeWhile (· != '/')).reverse := by
  -- From the end: a slash adds no piece, any other character ends the last word.
  induction path using List.reverseRecOn with
  | nil => rfl
  | append_singleton path c ih =>
    by_cases slash : c = '/'
    · subst slash
      rw [pieces_append_slash]
      simpa [pieces_eq_splitOn] using ih
    · obtain ⟨word, whole, last, ends⟩ := exists_last_word path
      have piece : pieces (word ++ [c]) = [word ++ [c]] := by
        apply pieces_word <;> simp [whole, Ne.symm slash]
      have found : (pieces (path ++ [c])).getLast? = some (word ++ [c]) := by
        rcases ends with rfl | ⟨early, rfl⟩
        · rw [piece]
          rfl
        · rw [List.append_assoc, List.cons_append, pieces_append_slash, piece, List.getLast?_concat]
      rw [found]
      simp [slash, last]

theorem segments_append_slash (path rest : String) :
    segments (path ++ "/" ++ rest) = segments path ++ segments rest := by
  have chars : (path ++ "/" ++ rest).toList = path.toList ++ '/' :: rest.toList := by simp
  rw [segments, chars, pieces_append_slash, List.map_append]
  rfl

theorem segments_word {word : String} (whole : '/' ∉ word.toList) (some_char : word ≠ "") :
    segments word = [word] := by
  have chars : word.toList ≠ [] := by simpa using some_char
  rw [segments, pieces_word whole chars]
  simp

end Path

namespace ArtifactFile

theorem name_eq (f : ArtifactFile) : f.name = (Path.segments f.path).getLast?.getD "" := by
  rw [name, ← Path.getLast?_pieces, Path.segments, List.getLast?_map]
  cases (Path.pieces f.path.toList).getLast? <;> rfl

theorem slash_not_mem_name (f : ArtifactFile) : '/' ∉ f.name.toList := by
  rw [name, String.toList_ofList, List.mem_reverse]
  exact Path.slash_not_mem_takeWhile _

theorem segments_name (f : ArtifactFile) (named : f.name ≠ "") : Path.segments f.name = [f.name] :=
  Path.segments_word f.slash_not_mem_name named

end ArtifactFile

end RunBoard
