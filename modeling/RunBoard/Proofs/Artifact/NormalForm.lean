import RunBoard.Proofs.Artifact.Segments

namespace RunBoard.Path

def joined (pieces : List (List Char)) : List Char := ['/'].intercalate pieces

theorem toList_intercalate (names : List String) :
    ("/".intercalate names).toList = joined (names.map String.toList) := by
  simp [joined]

def leading (path : List Char) : List Char := if path.head? = some '/' then ['/'] else []

def trailing (path : List Char) : List Char :=
  if pieces path ≠ [] ∧ path.getLast? = some '/' then ['/'] else []

theorem pieces_slash (rest : List Char) : pieces ('/' :: rest) = pieces rest :=
  pieces_append_slash [] rest

theorem pieces_cons {c : Char} (other : c ≠ '/') (rest : List Char) :
    ∃ word more, pieces (c :: rest) = (c :: word) :: more ∧
      ((word = [] ∧ more = pieces rest ∧ (rest = [] ∨ leading rest = ['/'])) ∨
        (pieces rest = word :: more ∧ leading rest = [])) := by
  have alone : pieces [c] = [[c]] := pieces_word (by simpa using Ne.symm other) (by simp)
  cases rest with
  | nil => exact ⟨[], [], alone, .inl ⟨rfl, rfl, .inl rfl⟩⟩
  | cons d rest =>
    by_cases slash : d = '/'
    · subst slash
      have split : pieces (c :: '/' :: rest) = pieces [c] ++ pieces rest := pieces_append_slash [c] rest
      rw [alone] at split
      exact ⟨[], pieces rest, split, .inl ⟨rfl, (pieces_slash rest).symm, .inr rfl⟩⟩
    · have first : leading (d :: rest) = [] := by simp [leading, slash]
      have some_word := List.splitOn_ne_nil '/' rest
      simp only [pieces_eq_splitOn, List.splitOn_cons_eq_if_modifyHead, first]
      cases split : rest.splitOn '/' with
      | nil => contradiction
      | cons word more => exact ⟨d :: word, more.filter (!·.isEmpty), by simp [other, slash]⟩

theorem pieces_ne_nil {c : Char} (other : c ≠ '/') (rest : List Char) : pieces (c :: rest) ≠ [] := by
  obtain ⟨word, more, split, -⟩ := pieces_cons other rest
  rw [split]
  exact List.cons_ne_nil _ _

theorem pieces_eq_nil_iff (path : List Char) : pieces path = [] ↔ ∀ c ∈ path, c = '/' := by
  induction path with
  | nil => simp [pieces]
  | cons c rest ih =>
    by_cases slash : c = '/'
    · subst slash
      simp [pieces_slash, ih]
    · simp [pieces_ne_nil slash, slash]

theorem word_of_mem_pieces {path piece : List Char} (member : piece ∈ pieces path) :
    piece ≠ [] ∧ '/' ∉ piece := by
  induction path generalizing piece with
  | nil => contradiction
  | cons c rest ih =>
    by_cases slash : c = '/'
    · rw [slash, pieces_slash] at member
      exact ih member
    · obtain ⟨word, more, split, parts⟩ := pieces_cons slash rest
      have whole : '/' ∉ word := by
        rcases parts with ⟨rfl, -, -⟩ | ⟨goesOn, -⟩
        · exact List.not_mem_nil
        · exact (ih (goesOn ▸ List.mem_cons_self)).2
      rw [split] at member
      rcases List.mem_cons.mp member with rfl | later
      · exact ⟨List.cons_ne_nil c word, by simp [Ne.symm slash, whole]⟩
      · rcases parts with ⟨-, rfl, -⟩ | ⟨goesOn, -⟩
        · exact ih later
        · exact ih (goesOn ▸ List.mem_cons_of_mem _ later)

theorem joined_cons (word : List Char) (rest : List (List Char)) :
    joined (word :: rest) = word ++ if rest = [] then [] else '/' :: joined rest := by
  cases rest <;> simp [joined]

theorem joined_pieces_cons {c : Char} (other : c ≠ '/') (rest : List Char) :
    joined (pieces (c :: rest)) =
      c :: ((if pieces rest = [] then [] else leading rest) ++ joined (pieces rest)) := by
  obtain ⟨word, more, split, ⟨rfl, rfl, first⟩ | ⟨goesOn, first⟩⟩ := pieces_cons other rest
  · rw [split, joined_cons]
    rcases first with rfl | first
    · rfl
    · by_cases bare : pieces rest = [] <;> simp [bare, first, joined]
  · simp [split, goesOn, first, joined_cons]

theorem squeeze_eq (path : List Char) :
    squeeze path = leading path ++ joined (pieces path) ++ trailing path := by
  fun_induction squeeze path with
  | case1 rest ih =>
    rw [ih]
    simp [leading, trailing, pieces_slash]
  | case2 c rest single ih =>
    rw [ih]
    by_cases slash : c = '/'
    · subst slash
      cases rest with
      | nil => rfl
      | cons d rest =>
        have next : d ≠ '/' := by
          rintro rfl
          exact single rest rfl rfl
        simp [leading, trailing, pieces_slash, next]
    · have first : leading (c :: rest) = [] := by simp [leading, slash]
      rw [joined_pieces_cons slash, first]
      by_cases bare : pieces rest = []
      · have last : trailing (c :: rest) = leading rest := by
          cases rest with
          | nil => simp [trailing, leading, slash]
          | cons d rest =>
            have slashes := (pieces_eq_nil_iff (d :: rest)).mp bare
            have ends : (d :: rest).getLast? = some '/' := by
              rw [List.getLast?_eq_some_getLast (List.cons_ne_nil d rest)]
              exact congrArg some (slashes _ (List.getLast_mem _))
            rw [trailing, List.getLast?_cons_cons, ends, if_pos ⟨pieces_ne_nil slash _, rfl⟩, leading,
              List.head?_cons, slashes d List.mem_cons_self, if_pos rfl]
        have none : trailing rest = [] := by simp [trailing, bare]
        simp [bare, last, none, joined]
      · have last : trailing (c :: rest) = trailing rest := by
          cases rest with
          | nil => contradiction
          | cons d rest => simp [trailing, List.getLast?_cons_cons, bare, pieces_ne_nil slash]
        simp [bare, last]
  | case3 => rfl

theorem getLast?_joined {pieces : List (List Char)} (some_piece : pieces ≠ [])
    (words : ∀ piece ∈ pieces, piece ≠ [] ∧ '/' ∉ piece) :
    ∃ c, c ≠ '/' ∧ (joined pieces).getLast? = some c := by
  induction pieces with
  | nil => contradiction
  | cons word rest ih =>
    rw [joined_cons]
    by_cases last : rest = []
    · subst last
      obtain ⟨some_char, whole⟩ := words word List.mem_cons_self
      refine ⟨word.getLast some_char, fun slash => whole (slash ▸ List.getLast_mem some_char), ?_⟩
      simp [List.getLast?_eq_some_getLast some_char]
    · obtain ⟨c, other, ends⟩ := ih last fun piece member => words piece (List.mem_cons_of_mem _ member)
      refine ⟨c, other, ?_⟩
      rw [if_neg last, List.getLast?_append, List.getLast?_cons, ends]
      rfl

theorem dropFinalSlash_squeeze (path : List Char) :
    dropFinalSlash (squeeze path) = leading path ++ joined (pieces path) := by
  rw [squeeze_eq]
  by_cases bare : pieces path = []
  · by_cases first : path.head? = some '/' <;>
      simp [bare, leading, trailing, joined, first, dropFinalSlash]
  · obtain ⟨c, other, last⟩ := getLast?_joined bare fun _ => word_of_mem_pieces
    have kept : (leading path ++ joined (pieces path)).getLast? = some c := by
      rw [List.getLast?_append, last]
      rfl
    generalize leading path ++ joined (pieces path) = chars at kept ⊢
    by_cases ends : path.getLast? = some '/'
    · have tail : trailing path = ['/'] := if_pos ⟨bare, ends⟩
      have long : 0 < chars.length := by
        rw [List.length_pos_iff]
        rintro rfl
        contradiction
      simp [tail, dropFinalSlash, long]
    · have none : trailing path = [] := if_neg fun both => ends both.2
      simp [none, dropFinalSlash, kept, other]

theorem normalizeChars_eq (path : List Char) :
    normalizeChars path = (splitScheme path).1 ++
      (leading (splitScheme path).2 ++ joined (pieces (splitScheme path).2)) := by
  rw [← dropFinalSlash_squeeze]
  rfl

theorem splitScheme_of_not_mem {path : List Char} (noColon : ':' ∉ path) :
    splitScheme path = ([], path) := by
  have before : ∀ c ∈ path, (c != ':') = true := by
    intro c member
    simpa using fun same : c = ':' => noColon (same ▸ member)
  have none : (path ++ []).dropWhile (· != ':') = [] := List.dropWhile_append_of_pos before
  rw [List.append_nil] at none
  rw [splitScheme, none]

theorem splitScheme_colon {name : List Char} (noColon : ':' ∉ name) (rest : List Char) :
    splitScheme (name ++ ':' :: rest) =
      if name ≠ [] ∧ name.all isSchemeChar = true then (name ++ [':'], rest)
      else ([], name ++ ':' :: rest) := by
  have before : ∀ c ∈ name, (c != ':') = true := by
    intro c member
    simpa using fun same : c = ':' => noColon (same ▸ member)
  have here : (name ++ ':' :: rest).takeWhile (· != ':') = name := by
    rw [List.takeWhile_append_of_pos before]
    simp
  have there : (name ++ ':' :: rest).dropWhile (· != ':') = ':' :: rest := by
    rw [List.dropWhile_append_of_pos before]
    simp
  rw [splitScheme, here, there]
  simp

theorem splitScheme_cases (path : List Char) :
    (∃ name rest, path = name ++ ':' :: rest ∧ ':' ∉ name ∧ (name ≠ [] ∧ name.all isSchemeChar = true) ∧
        splitScheme path = (name ++ [':'], rest)) ∨
      splitScheme path = ([], path) := by
  by_cases colon : ':' ∈ path
  · obtain ⟨name, rest, rfl, first⟩ := List.eq_append_cons_of_mem colon
    by_cases named : name ≠ [] ∧ name.all isSchemeChar = true
    · exact .inl ⟨name, rest, rfl, first, named, (splitScheme_colon first rest).trans (if_pos named)⟩
    · exact .inr ((splitScheme_colon first rest).trans (if_neg named))
  · exact .inr (splitScheme_of_not_mem colon)

theorem splitScheme_append_slash (path rest : List Char) :
    splitScheme (path ++ '/' :: rest) =
      ((splitScheme path).1, (splitScheme path).2 ++ '/' :: rest) := by
  by_cases colon : ':' ∈ path
  · obtain ⟨name, tail, rfl, noColon⟩ := List.eq_append_cons_of_mem colon
    rw [List.append_assoc, List.cons_append, splitScheme_colon noColon, splitScheme_colon noColon]
    split
    · rfl
    · simp
  · rw [splitScheme_of_not_mem colon]
    by_cases later : ':' ∈ rest
    · obtain ⟨name, tail, rfl, noColon⟩ := List.eq_append_cons_of_mem later
      have before : ':' ∉ path ++ '/' :: name := by simp [colon, noColon]
      have split : path ++ '/' :: (name ++ ':' :: tail) = (path ++ '/' :: name) ++ ':' :: tail := by
        simp
      have slash : isSchemeChar '/' = false := by decide
      rw [split, splitScheme_colon before, if_neg (by simp [slash])]
    · rw [splitScheme_of_not_mem (by simp [colon, later])]

theorem pieces_joined {pieces : List (List Char)}
    (words : ∀ piece ∈ pieces, piece ≠ [] ∧ '/' ∉ piece) : Path.pieces (joined pieces) = pieces := by
  rw [pieces_eq_splitOn, joined]
  by_cases none : pieces = []
  · subst none
    rfl
  · rw [List.splitOn_intercalate '/' (fun piece member => (words piece member).2) none,
      List.filter_eq_self]
    intro piece member
    simpa using (words piece member).1

theorem joined_append {first rest : List (List Char)} (some_first : first ≠ [])
    (some_rest : rest ≠ []) : joined (first ++ rest) = joined first ++ '/' :: joined rest := by
  induction first with
  | nil => contradiction
  | cons word first ih =>
    rw [List.cons_append, joined_cons, joined_cons, if_neg (by simp [some_rest])]
    by_cases last : first = []
    · simp [last]
    · simp [last, ih last]

theorem scheme_append_rest (path : List Char) :
    (splitScheme path).1 ++ (splitScheme path).2 = path := by
  rcases splitScheme_cases path with ⟨name, rest, rfl, -, -, split⟩ | split <;> simp [split]

theorem slash_not_mem_scheme (path : List Char) : '/' ∉ (splitScheme path).1 := by
  rcases splitScheme_cases path with ⟨name, rest, rfl, -, named, split⟩ | split <;> rw [split]
  · intro member
    rcases List.mem_append.mp member with letter | colon
    · exact absurd (List.all_eq_true.mp named.2 '/' letter) (by decide)
    · exact absurd (List.mem_singleton.mp colon) (by decide)
  · exact List.not_mem_nil

/-- No two slashes meet, and none but a lone one stands at the end. -/
def Tidy (path : List Char) : Prop := leading path ++ joined (pieces path) = path

theorem exists_cons_of_joined {words : List (List Char)} (some_word : words ≠ [])
    (whole : ∀ word ∈ words, word ≠ [] ∧ '/' ∉ word) :
    ∃ c rest, c ≠ '/' ∧ joined words = c :: rest := by
  obtain ⟨word, more, rfl⟩ := List.exists_cons_of_ne_nil some_word
  obtain ⟨some_char, noSlash⟩ := whole word List.mem_cons_self
  obtain ⟨c, tail, rfl⟩ := List.exists_cons_of_ne_nil some_char
  rw [joined_cons]
  exact ⟨c, _, fun slash => noSlash (slash ▸ List.mem_cons_self), rfl⟩

theorem leading_joined {words : List (List Char)}
    (whole : ∀ word ∈ words, word ≠ [] ∧ '/' ∉ word) : leading (joined words) = [] := by
  by_cases none : words = []
  · subst none
    rfl
  · obtain ⟨c, rest, other, starts⟩ := exists_cons_of_joined none whole
    simp [starts, leading, other]

theorem tidy_joined {words : List (List Char)} (whole : ∀ word ∈ words, word ≠ [] ∧ '/' ∉ word) :
    Tidy (joined words) := by
  rw [Tidy, leading_joined whole, pieces_joined whole, List.nil_append]

theorem Tidy.tail {c : Char} {rest : List Char} (tidy : Tidy (c :: rest)) (other : c ≠ '/') :
    Tidy rest := by
  have first : leading (c :: rest) = [] := by simp [leading, other]
  rw [Tidy, first, joined_pieces_cons other, List.nil_append, List.cons.injEq] at tidy
  by_cases bare : pieces rest = []
  · rw [if_pos bare, bare] at tidy
    rw [← tidy.2]
    rfl
  · rw [if_neg bare] at tidy
    exact tidy.2

theorem Tidy.drop {word rest : List Char} (tidy : Tidy (word ++ rest)) (noSlash : '/' ∉ word) :
    Tidy rest := by
  induction word with
  | nil => exact tidy
  | cons c word ih =>
    rw [List.mem_cons, not_or] at noSlash
    exact ih (tidy.tail (Ne.symm noSlash.1)) noSlash.2

theorem Tidy.normalizeChars_eq {path : List Char} (tidy : Tidy path) : normalizeChars path = path := by
  have whole := scheme_append_rest path
  have rest : Tidy (splitScheme path).2 := Tidy.drop (whole.symm ▸ tidy) (slash_not_mem_scheme path)
  rw [Path.normalizeChars_eq, rest, whole]

end RunBoard.Path
