import RunBoard.Yaml.Token

namespace RunBoard.Yaml

def isWordy (c : Char) : Bool := c.isAlphanum || c = '_'

theorem isWordy_eq (c : Char) : isWordy c =
    (decide (65 ≤ c.val ∧ c.val ≤ 90) || (97 ≤ c.val && c.val ≤ 122) ||
      (48 ≤ c.val && c.val ≤ 57) || c = '_') :=
  rfl

theorem toNat_of_isWordy {c : Char} (wordy : isWordy c = true) : c.toNat < 128 := by
  simp only [isWordy_eq, Bool.or_eq_true, Bool.and_eq_true, decide_eq_true_eq,
    UInt32.le_iff_toNat_le] at wordy
  rcases wordy with ((⟨-, upper⟩ | ⟨-, lower⟩) | ⟨-, digit⟩) | rfl
  · exact Nat.lt_of_le_of_lt (show c.toNat ≤ 90 from upper) (by decide)
  · exact Nat.lt_of_le_of_lt (show c.toNat ≤ 122 from lower) (by decide)
  · exact Nat.lt_of_le_of_lt (show c.toNat ≤ 57 from digit) (by decide)
  · decide

theorem of_isWordy {P : Char → Bool}
    (ascii : ∀ n < 128, isWordy (Char.ofNat n) = true → P (Char.ofNat n) = true) {c : Char}
    (wordy : isWordy c = true) : P c = true := by
  have held := ascii c.toNat (toNat_of_isWordy wordy)
  rw [Char.ofNat_toNat] at held
  exact held wordy

section Wordy

variable {c : Char} (wordy : isWordy c = true)

include wordy

theorem ne_of_isWordy {mark : Char} (foreign : isWordy mark = false) : c ≠ mark := by
  rintro rfl
  rw [wordy] at foreign
  contradiction

theorem isBlank_of_isWordy : isBlank c = false :=
  Bool.not_eq_true' _ ▸ of_isWordy (P := fun c => !isBlank c) (by decide) wordy

theorem isBreak_of_isWordy : isBreak c = false :=
  Bool.not_eq_true' _ ▸ of_isWordy (P := fun c => !isBreak c) (by decide) wordy

theorem isAllowed_of_isWordy : isAllowed c = true := of_isWordy (by decide) wordy

theorem startsPlain_of_isWordy (inFlow : Bool) (rest : List Char) :
    Scan.startsPlain inFlow c rest = true := by
  have unmarked := of_isWordy (P := fun c =>
    !(isBlank c || isBreak c || "-?:,[]\x7b\x7d#&*!|>'\"%@`".toList.contains c)) (by decide) wordy
  rw [Scan.startsPlain, unmarked, Bool.true_or, Bool.true_or]

end Wordy

namespace Cursor

theorem skipWhile_of_not {c : Cursor} {p : Char → Bool} (stays : c.rest.head?.all (!p ·) = true) :
    c.skipWhile p = c := by
  have none : c.rest.takeWhile p = [] := by
    cases same : c.rest with
    | nil => rfl
    | cons first rest =>
      rw [same] at stays
      exact List.takeWhile_cons_of_neg (by simpa using stays)
  rw [skipWhile, none]
  rfl

theorem startsMark_of_ne {c : Cursor} {mark first : Char} {rest : List Char}
    (here : c.rest = first :: rest) (ne : first ≠ mark) : c.startsMark mark = false := by
  unfold startsMark
  split
  · rename_i x y z after same
    rw [here] at same
    obtain ⟨rfl, -⟩ := List.cons.inj same
    simp [ne]
  · rfl

theorem lineBreak_newline {c : Cursor} {text : List Char} (here : c.rest = '\n' :: text) :
    c.lineBreak = (['\n'], { c.skip 1 with line := c.line + 1, column := 0 }) := by
  rw [lineBreak, here]
  rfl

end Cursor

structure IsWord (word : List Char) : Prop where
  ne_nil : word ≠ []
  wordy : ∀ c ∈ word, isWordy c = true

theorem IsWord.exists_cons {word : List Char} (isWord : IsWord word) :
    ∃ c rest, word = c :: rest ∧ isWordy c = true := by
  obtain ⟨c, rest, rfl⟩ := List.exists_cons_of_ne_nil isWord.ne_nil
  exact ⟨c, rest, rfl, isWord.wordy c List.mem_cons_self⟩

def StartsWord (text : List Char) : Prop := text.head?.all isWordy = true

namespace Plain

theorem word?_append {word tail : List Char} (wordy : ∀ c ∈ word, isWordy c = true)
    (stops : word? false tail = some []) : word? false (word ++ tail) = some word := by
  induction word with
  | nil => exact stops
  | cons c rest ih =>
    obtain ⟨first, others⟩ := List.forall_mem_cons.mp wordy
    rw [List.cons_append, word?, isBlank_of_isWordy first, isBreak_of_isWordy first, ih others]
    simp [(ne_of_isWordy first rfl : c ≠ ':')]

end Plain

namespace Gap

theorem after_start (c : Cursor) : (start c).after = c := rfl

theorem text_start (c : Cursor) : (start c).text = [] := rfl

theorem extend?_of_startsWord {g : Gap} (starts : StartsWord g.after.rest) (limit fuel : Nat) :
    extend? limit fuel g = some g := by
  cases fuel with
  | zero => rfl
  | succ fuel =>
    unfold StartsWord at starts
    rw [extend?]
    cases here : g.after.rest with
    | nil => rfl
    | cons c rest =>
      rw [here] at starts
      have wordy : isWordy c = true := by simpa using starts
      simp only [isBlank_of_isWordy wordy, isBreak_of_isWordy wordy, Bool.false_eq_true, if_false]

theorem read?_newline {c : Cursor} {text : List Char} (here : c.rest = '\n' :: text)
    (starts : StartsWord text) (limit : Nat) :
    read? limit (start c) = some { start c with
      after := c.lineBreak.2, broken := true, firstBreak := ['\n'] } := by
  have length : (start c).after.rest.length = text.length + 1 := congrArg List.length here
  have first : (start c).after.rest = '\n' :: text := here
  have after : StartsWord c.lineBreak.2.rest := by
    rw [Cursor.lineBreak_newline here]
    simpa [Cursor.skip, here] using starts
  rw [read?, length, extend?, first]
  have blank : isBlank '\n' = false := rfl
  have isBreak : isBreak '\n' = true := rfl
  have read : (start c).after.lineBreak.1 = ['\n'] := congrArg Prod.fst (Cursor.lineBreak_newline here)
  simp only [blank, isBreak, Bool.false_eq_true, if_false, if_true]
  rw [if_neg (by nofun), read]
  exact extend?_of_startsWord after limit _

end Gap

namespace Cursor

theorem rest_skip {c : Cursor} {word tail : List Char} (here : c.rest = word ++ tail) :
    (c.skip word.length).rest = tail := by
  rw [skip, here]
  exact List.drop_left

end Cursor

namespace Plain

/-- What becomes of a word where a plain scalar may start: the scalar ends with it unless a blank or
a line break comes next, and then unless the text goes on right of the column `limit`. -/
theorem scan?_word {c : Cursor} {word tail : List Char} (isWord : IsWord word)
    (here : c.rest = word ++ tail) (stops : word? false tail = some []) (limit : Nat)
    {gap : Gap} (ends : (tail.head?.any fun c => isBlank c || isBreak c) = false ∧
        gap = .start (c.skip word.length) ∨
      (tail.head?.any fun c => isBlank c || isBreak c) = true ∧
        (Gap.start (c.skip word.length)).read? limit = some gap ∧ gap.after.column < limit) :
    scan? false limit c = some { text := word, gap } := by
  obtain ⟨first, others, same, wordy⟩ := isWord.exists_cons
  have starts : c.rest = first :: (others ++ tail) := by rw [here, same]; rfl
  have noMark : c.startsDocumentMark = false := by
    rw [Cursor.startsDocumentMark, Cursor.startsMark_of_ne starts (ne_of_isWordy wordy rfl),
      Cursor.startsMark_of_ne starts (ne_of_isWordy wordy rfl)]
    rfl
  have noComment : (c.rest.head? == some '#') = false := by
    simp [starts, (ne_of_isWordy wordy rfl : first ≠ '#')]
  have length : c.rest.length = (others ++ tail).length + 1 := congrArg List.length starts
  have given : word.isEmpty = false := by rw [same]; rfl
  have taken : word? false c.rest = some word := by
    rw [here]
    exact word?_append isWord.wordy stops
  rw [scan?, length, words?]
  simp only [Gap.after_start, Gap.text_start, noMark, noComment, taken, given, Cursor.rest_skip here,
    Option.bind_eq_bind, Option.bind_some, Bool.or_self, Bool.false_eq_true, if_false,
    List.nil_append, Bool.not_false, Bool.true_and]
  rcases ends with ⟨goesOn, rfl⟩ | ⟨blank, read, left⟩
  · rw [goesOn]
    rfl
  · rw [blank, read]
    simp [left]

end Plain

namespace Scan

def startsToken (c : Char) : Bool :=
  !(c = ' ' || c = '\t' || c = '#' || c = '\ufeff' || isBreak c)

theorem startsToken_of_isWordy {c : Char} (wordy : isWordy c = true) : startsToken c = true :=
  of_isWordy (by decide) wordy

theorem skipToToken_of_head {s : Scan} (ready : s.place.rest.head?.all startsToken = true)
    (fuel : Nat) : skipToToken (fuel + 1) s = s := by
  have blank : s.place.skipWhile
      (fun c => c = ' ' || ((s.inFlow || !s.keyAllowed) && c = '\t')) = s.place := by
    apply Cursor.skipWhile_of_not
    cases head : s.place.rest.head? with
    | none => rfl
    | some c =>
      rw [head] at ready
      simp only [Option.all_some, startsToken, Bool.not_eq_true', Bool.or_eq_false_iff] at ready ⊢
      simp [ready]
  rw [skipToToken]
  cases head : s.place.rest.head? with
  | none => simp [blank, head]
  | some c =>
    rw [head] at ready
    simp only [Option.all_some, startsToken, Bool.not_eq_true', Bool.or_eq_false_iff,
      decide_eq_false_iff_not] at ready
    simp [blank, head, ready]

theorem skipToToken_space {s : Scan} {text : List Char} (here : s.place.rest = ' ' :: text)
    (starts : text.head?.all startsToken = true) (fuel : Nat) :
    skipToToken (fuel + 1) s = { s with place := s.place.skip 1 } := by
  have rest : (s.place.skip 1).rest = text := by rw [Cursor.skip, here]; rfl
  have blank : s.place.skipWhile
      (fun c => c = ' ' || ((s.inFlow || !s.keyAllowed) && c = '\t')) = s.place.skip 1 := by
    rw [Cursor.skipWhile, here, List.takeWhile_cons_of_pos (by simp)]
    cases text with
    | nil => rfl
    | cons c after =>
      simp only [List.head?_cons, Option.all_some, startsToken, Bool.not_eq_true',
        Bool.or_eq_false_iff, decide_eq_false_iff_not] at starts
      rw [List.takeWhile_cons_of_neg (by simp [starts])]
      rfl
  rw [skipToToken]
  cases text with
  | nil => simp [blank, here, rest]
  | cons c after =>
    simp only [List.head?_cons, Option.all_some, startsToken, Bool.not_eq_true',
      Bool.or_eq_false_iff, decide_eq_false_iff_not] at starts
    simp [blank, here, rest, starts]

theorem token?_of_isWordy {s : Scan} {c : Char} {rest : List Char} (here : s.place.rest = c :: rest)
    (wordy : isWordy c = true) : s.token? c rest = s.plain? := by
  have foreign : ∀ {mark : Char}, isWordy mark = false → c ≠ mark := ne_of_isWordy wordy
  rw [token?, Cursor.startsMark_of_ne here (foreign rfl), Cursor.startsMark_of_ne here (foreign rfl),
    startsPlain_of_isWordy wordy]
  simp [(foreign rfl : c ≠ '%'), (foreign rfl : c ≠ '['), (foreign rfl : c ≠ ']'),
    (foreign rfl : c ≠ '\x7b'), (foreign rfl : c ≠ '\x7d'), (foreign rfl : c ≠ ','),
    (foreign rfl : c ≠ '-'), (foreign rfl : c ≠ '?'), (foreign rfl : c ≠ ':'),
    (foreign rfl : c ≠ '*'), (foreign rfl : c ≠ '&'), (foreign rfl : c ≠ '!'),
    (foreign rfl : c ≠ '|'), (foreign rfl : c ≠ '>'), (foreign rfl : c ≠ '\''),
    (foreign rfl : c ≠ '"')]

theorem token?_colon {s : Scan} {rest : List Char} (here : s.place.rest = ':' :: rest)
    (ends : endsWord rest = true) : s.token? ':' rest = s.value? := by
  rw [token?, Cursor.startsMark_of_ne here (by decide), Cursor.startsMark_of_ne here (by decide)]
  simp [ends]

theorem run?_token {s skipped after : Scan} {c : Char} {rest : List Char}
    (skips : skipToToken (s.place.rest.length + 1) s = skipped)
    (fresh : skipped.dropStale? = some skipped)
    (stays : skipped.closeBlocks skipped.place.column = skipped)
    (here : skipped.place.rest = c :: rest) (token : skipped.token? c rest = some after) (fuel : Nat) :
    run? (fuel + 1) s = run? fuel after := by
  rw [run?, skips]
  simp only [fresh, Option.bind_eq_bind, Option.bind_some, stays, here, token]

end Scan

def entryTokens (entry : List Char × List Char) : List Token :=
  [.key, .scalar (String.ofList entry.1) .plain, .value, .scalar (String.ofList entry.2) .plain]

def openTokens (entries : List (List Char × List Char)) : List Token :=
  if entries.isEmpty then [] else .blockMapping :: entries.flatMap entryTokens

namespace Scan

/-- The scan at the start of a line, after lines with these entries. -/
def atLine (entries : List (List Char × List Char)) (place : Cursor) : Scan where
  place
  tokens := openTokens entries
  indent := if entries.isEmpty then -1 else 0
  outer := if entries.isEmpty then [] else [-1]
  keyAllowed := true
  candidates := [none]

def afterKey (entries : List (List Char × List Char)) (start : Cursor) (key : List Char) : Scan where
  place := start.skip key.length
  tokens := openTokens entries ++ [.scalar (String.ofList key) .plain]
  indent := if entries.isEmpty then -1 else 0
  outer := if entries.isEmpty then [] else [-1]
  keyAllowed := false
  candidates := [some {
    tokens := (openTokens entries).length, index := start.index, line := start.line, column := 0
    required := !entries.isEmpty }]

def afterColon (entries : List (List Char × List Char)) (place : Cursor) (key : List Char) : Scan where
  place
  tokens := .blockMapping :: entries.flatMap entryTokens ++
    [.key, .scalar (String.ofList key) .plain, .value]
  indent := 0
  outer := [-1]
  keyAllowed := false
  candidates := [none]

variable {entries : List (List Char × List Char)} {place : Cursor} {key value text : List Char}

theorem closeFrom_line (entries : List (List Char × List Char)) (column : Nat) {s : Scan}
    (indent : s.indent = if entries.isEmpty then -1 else 0)
    (outer : s.outer = if entries.isEmpty then [] else [-1]) (single : s.inFlow = false) :
    s.closeBlocks column = s := by
  rw [closeBlocks, if_neg (by simp [single]), outer]
  split
  · rfl
  · rename_i given
    rw [if_neg given] at indent
    rw [closeFrom, if_neg (by omega)]

theorem offerKey?_atLine (entries : List (List Char × List Char)) (key : List Char)
    (column : place.column = 0) :
    (atLine entries place).offerKey? = some { atLine entries place with
      candidates := (afterKey entries place key).candidates } := by
  cases entries <;> simp [atLine, afterKey, offerKey?, dropCandidate?, inFlow, openTokens, column]

theorem run?_key (isWord : IsWord key) (here : place.rest = key ++ ':' :: ' ' :: text)
    (column : place.column = 0) (fuel : Nat) :
    run? (fuel + 1) (atLine entries place) = run? fuel (afterKey entries place key) := by
  obtain ⟨c, others, same, wordy⟩ := isWord.exists_cons
  have starts : place.rest = c :: (others ++ ':' :: ' ' :: text) := by rw [here, same]; rfl
  refine run?_token (skipToToken_of_head ?_ _) rfl (closeFrom_line entries _ rfl rfl rfl) starts ?_ fuel
  · simp [atLine, starts, startsToken_of_isWordy wordy]
  · have read := Plain.scan?_word isWord here rfl ((atLine entries place).indent + 1).toNat
      (.inl ⟨rfl, rfl⟩)
    have candidate := offerKey?_atLine entries key column
    rw [token?_of_isWordy starts wordy, plain?, candidate]
    simp only [Option.bind_eq_bind, Option.bind_some]
    have inFlow : ({ atLine entries place with
      candidates := (afterKey entries place key).candidates } : Scan).inFlow = false := rfl
    rw [inFlow]
    exact (congrArg (Option.bind · _) read).trans rfl

theorem run?_colon (here : place.rest = key ++ ':' :: ' ' :: text)
    (short : octetCount key ≤ 1024) (fuel : Nat) :
    run? (fuel + 1) (afterKey entries place key) =
      run? fuel (afterColon entries ((place.skip key.length).skip 1) key) := by
  have starts : (place.skip key.length).rest = ':' :: ' ' :: text := Cursor.rest_skip here
  have taken : place.rest.take key.length = key := by rw [here]; exact List.take_left
  refine run?_token (skipToToken_of_head ?_ _) ?_ (closeFrom_line entries _ rfl rfl rfl) starts ?_ fuel
  · simp [afterKey, starts, startsToken, isBreak]
  · simp only [dropStale?, afterKey, isStale, Cursor.skip, taken]
    simp [Nat.not_lt.mpr (Nat.add_le_add_left short place.index)]
  · rw [token?_colon starts rfl]
    simp only [value?, afterKey, List.take_left, List.drop_left]
    cases entries <;> simp [afterColon, openTokens, openBlock, inFlow, mark, push]

theorem run?_value (isWord : IsWord value) (here : place.rest = ' ' :: (value ++ '\n' :: text))
    (starts : StartsWord text) (fuel : Nat) :
    run? (fuel + 1) (afterColon entries place key) =
      run? fuel (atLine (entries ++ [(key, value)])
        ((place.skip 1).skip value.length).lineBreak.2) := by
  obtain ⟨c, others, same, wordy⟩ := isWord.exists_cons
  have first : (place.skip 1).rest = value ++ '\n' :: text := by rw [Cursor.skip, here]; rfl
  have head : (place.skip 1).rest = c :: (others ++ '\n' :: text) := by rw [first, same]; rfl
  have newline := Cursor.rest_skip first
  have gap := Gap.read?_newline newline starts 1
  have read := Plain.scan?_word isWord first rfl 1 (.inr ⟨rfl, gap, by
    rw [Cursor.lineBreak_newline newline]; exact Nat.one_pos⟩)
  refine run?_token (skipToToken_space here ?_ _) rfl
    (closeFrom_line [(key, value)] _ rfl rfl rfl) head ?_ fuel
  · simp [same, startsToken_of_isWordy wordy]
  · rw [token?_of_isWordy head wordy, plain?]
    have candidate (place : Cursor) : (afterColon entries place key).offerKey? =
        some (afterColon entries place key) := rfl
    refine (congrArg (Option.bind · _) (candidate (place.skip 1))).trans ?_
    refine (congrArg (Option.bind · _) read).trans ?_
    simp [afterColon, atLine, openTokens, push, entryTokens]

theorem run?_line (entries : List (List Char × List Char)) (isKey : IsWord key)
    (short : octetCount key ≤ 1024) (isWord : IsWord value)
    (here : place.rest = key ++ ':' :: ' ' :: (value ++ '\n' :: text)) (starts : StartsWord text)
    (column : place.column = 0) :
    ∃ after : Cursor, after.rest = text ∧ after.column = 0 ∧ ∀ fuel,
      run? (fuel + 3) (atLine entries place) =
        run? fuel (atLine (entries ++ [(key, value)]) after) := by
  have colon := Cursor.rest_skip here
  have space : ((place.skip key.length).skip 1).rest = ' ' :: (value ++ '\n' :: text) := by
    rw [Cursor.skip, colon]
    rfl
  have word : (((place.skip key.length).skip 1).skip 1).rest = value ++ '\n' :: text := by
    rw [Cursor.skip, space]
    rfl
  have newline := Cursor.lineBreak_newline (Cursor.rest_skip word)
  refine ⟨((((place.skip key.length).skip 1).skip 1).skip value.length).lineBreak.2, ?_, ?_,
    fun fuel => ?_⟩
  · rw [newline]
    exact congrArg (List.drop 1) (Cursor.rest_skip word)
  · rw [newline]
  · rw [run?_key isKey here column, run?_colon here short, run?_value isWord space starts]

end Scan

def linesOf (entries : List (List Char × List Char)) : List Char :=
  entries.flatMap fun entry => entry.1 ++ ':' :: ' ' :: (entry.2 ++ ['\n'])

structure IsEntry (entry : List Char × List Char) : Prop where
  key : IsWord entry.1
  short : octetCount entry.1 ≤ 1024
  value : IsWord entry.2

def lineTokens (entries : List (List Char × List Char)) : List Token :=
  if entries.isEmpty then [] else .blockMapping :: (entries.flatMap entryTokens ++ [.blockEnd])

theorem linesOf_cons (entry : List Char × List Char) (rest : List (List Char × List Char)) :
    linesOf (entry :: rest) = entry.1 ++ ':' :: ' ' :: (entry.2 ++ '\n' :: linesOf rest) := by
  simp [linesOf]

theorem startsWord_linesOf {entries : List (List Char × List Char)}
    (each : ∀ entry ∈ entries, IsEntry entry) : StartsWord (linesOf entries) := by
  cases entries with
  | nil => rfl
  | cons entry rest =>
    obtain ⟨c, others, same, wordy⟩ := (each entry List.mem_cons_self).key.exists_cons
    simp [StartsWord, linesOf_cons, same, wordy]

namespace Scan

theorem run?_end (entries : List (List Char × List Char)) {place : Cursor} (ended : place.rest = [])
    (fuel : Nat) :
    (run? (fuel + 1) (atLine entries place)).map (·.tokens) = some (lineTokens entries) := by
  have skips := skipToToken_of_head (s := atLine entries place) (by simp [atLine, ended])
  have fresh : (atLine entries place).dropStale? = some (atLine entries place) := rfl
  have stays := closeFrom_line (s := atLine entries place) entries place.column rfl rfl rfl
  have here : (atLine entries place).place = place := rfl
  rw [run?, skips]
  simp only [fresh, Option.bind_eq_bind, Option.bind_some, here, stays, ended]
  cases entries <;>
    simp [finish?, closeBlocks, closeFrom, atLine, inFlow, dropCandidate?, push, openTokens, lineTokens]

theorem run?_lines {todo : List (List Char × List Char)} (each : ∀ entry ∈ todo, IsEntry entry)
    (done : List (List Char × List Char)) {place : Cursor} (here : place.rest = linesOf todo)
    (column : place.column = 0) {fuel : Nat} (enough : 3 * todo.length < fuel) :
    (run? fuel (atLine done place)).map (·.tokens) = some (lineTokens (done ++ todo)) := by
  -- By the lines to come. Each of them takes the fuel of three tokens.
  induction todo generalizing done place fuel with
  | nil =>
    obtain ⟨fuel, rfl⟩ := Nat.exists_eq_add_one_of_ne_zero (Nat.pos_iff_ne_zero.mp enough)
    rw [List.append_nil]
    exact run?_end done here fuel
  | cons entry rest ih =>
    obtain ⟨isEntry, others⟩ := List.forall_mem_cons.mp each
    rw [linesOf_cons] at here
    obtain ⟨after, left, start, line⟩ := run?_line done isEntry.key isEntry.short
      isEntry.value here (startsWord_linesOf others) column
    obtain ⟨fuel, rfl⟩ : ∃ less, fuel = less + 3 := ⟨fuel - 3, by simp at enough; omega⟩
    rw [line, ih others (done ++ [entry]) left start (by simp at enough; omega), List.append_assoc]
    rfl

end Scan

theorem length_le_linesOf (entries : List (List Char × List Char)) :
    3 * entries.length ≤ (linesOf entries).length := by
  induction entries with
  | nil => exact Nat.le_refl 0
  | cons entry rest ih =>
    simp only [linesOf_cons, List.length_append, List.length_cons]
    omega

theorem allowed_linesOf {entries : List (List Char × List Char)}
    (each : ∀ entry ∈ entries, IsEntry entry) : (linesOf entries).all isAllowed = true := by
  rw [List.all_eq_true]
  intro c member
  obtain ⟨entry, held, inLine⟩ := List.mem_flatMap.mp member
  have isEntry := each entry held
  simp only [List.mem_append, List.mem_cons, List.not_mem_nil, or_false] at inLine
  rcases inLine with key | rfl | rfl | value | rfl
  · exact isAllowed_of_isWordy (isEntry.key.wordy c key)
  · rfl
  · rfl
  · exact isAllowed_of_isWordy (isEntry.value.wordy c value)
  · rfl

theorem tokens?_linesOf {entries : List (List Char × List Char)}
    (each : ∀ entry ∈ entries, IsEntry entry) :
    tokens? (String.ofList (linesOf entries)) = some (lineTokens entries) := by
  have enough := length_le_linesOf entries
  simp only [tokens?, String.toList_ofList, allowed_linesOf each, if_true]
  exact Scan.run?_lines each [] rfl rfl (by omega)

end RunBoard.Yaml
