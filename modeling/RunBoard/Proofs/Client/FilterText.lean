import Mathlib.Data.List.Basic
import RunBoard.Client.Query

namespace RunBoard.FilterText

/-- A literal after its opening quote, up to the quote that ends it, and the text behind it. A
backslash before a quote makes it part of the literal. -/
def readLiteral : List Char → Option (List Char × List Char)
  | [] => none
  | '\\' :: '\'' :: rest => (readLiteral rest).map fun (text, after) => ('\'' :: text, after)
  | '\'' :: rest => some ([], rest)
  | c :: rest => (readLiteral rest).map fun (text, after) => (c :: text, after)

theorem length_readLiteral {chars text after : List Char}
    (read : readLiteral chars = some (text, after)) : after.length < chars.length := by
  fun_induction readLiteral chars generalizing text with
  | case1 => contradiction
  | case2 rest ih =>
    obtain ⟨⟨more, found⟩, below, same⟩ := Option.map_eq_some_iff.mp read
    obtain ⟨-, rfl⟩ := Prod.mk.inj same
    have shorter := ih below
    simp only [List.length_cons]
    omega
  | case3 rest =>
    obtain ⟨-, rfl⟩ := Prod.mk.inj (Option.some.inj read)
    exact Nat.lt_succ_self _
  | case4 c rest _ _ ih =>
    obtain ⟨⟨more, found⟩, below, same⟩ := Option.map_eq_some_iff.mp read
    obtain ⟨-, rfl⟩ := Prod.mk.inj same
    exact Nat.lt_succ_of_lt (ih below)

def readMore (chars : List Char) : Option (List (List Char)) :=
  match chars with
  | [')'] => some []
  | ',' :: ' ' :: '\'' :: rest =>
    match _read : readLiteral rest with
    | some (text, after) => (readMore after).map (text :: ·)
    | none => none
  | _ => none
termination_by chars.length
decreasing_by
  have shorter := length_readLiteral _read
  simp only [List.length_cons]
  omega

def readLiterals : List Char → Option (List (List Char))
  | [')'] => some []
  | '\'' :: rest => readMore (',' :: ' ' :: '\'' :: rest)
  | _ => none

def readFilter (filter : String) : Option (List String) :=
  ("run_id IN (".toList.isPrefixOf? filter.toList).bind fun rest =>
    (readLiterals rest).map (·.map String.ofList)

def escaped (text : List Char) : List Char :=
  text.flatMap fun c => if c = '\'' then ['\\', '\''] else [c]

theorem escaped_append (text rest : List Char) : escaped (text ++ rest) = escaped text ++ escaped rest :=
  List.flatMap_append

theorem readLiteral_cons {c : Char} {rest : List Char} (other : c ≠ '\'')
    (apart : c = '\\' → rest.head? ≠ some '\'') :
    readLiteral (c :: rest) = (readLiteral rest).map fun (text, after) => (c :: text, after) := by
  apply readLiteral.eq_4
  · rintro late rfl rfl
    exact apart rfl rfl
  · exact other

theorem head?_escaped_append {text : List Char} (rest : List Char) (some_char : text ≠ []) :
    (escaped text ++ rest).head? ≠ some '\'' := by
  obtain ⟨c, late, rfl⟩ := List.exists_cons_of_ne_nil some_char
  by_cases quote : c = '\'' <;> simp [escaped, quote]

theorem readLiteral_escaped_append (text rest : List Char)
    (apart : text.getLast? = some '\\' → rest.head? ≠ some '\'') :
    readLiteral (escaped text ++ rest) =
      (readLiteral rest).map fun (more, after) => (text ++ more, after) := by
  induction text with
  | nil => exact Option.map_id'.symm
  | cons c late ih =>
    have below := ih fun last => apart (by simp [List.getLast?_cons, last])
    by_cases quote : c = '\''
    · subst quote
      have starts : escaped ('\'' :: late) ++ rest = '\\' :: '\'' :: (escaped late ++ rest) := rfl
      rw [starts, readLiteral, below, Option.map_map]
      rfl
    · have starts : escaped (c :: late) ++ rest = c :: (escaped late ++ rest) := by
        simp [escaped, quote]
      rw [starts, readLiteral_cons quote, below, Option.map_map]
      · rfl
      · rintro rfl
        by_cases ends : late = []
        · subst ends
          exact apart rfl
        · exact head?_escaped_append rest ends

def EndsOpen (text : List Char) : Prop := text.getLast? = some '\\'

instance (text : List Char) : Decidable (EndsOpen text) := inferInstanceAs (Decidable (_ = _))

theorem readLiteral_closed {text : List Char} (closed : ¬EndsOpen text) (rest : List Char) :
    readLiteral (escaped text ++ '\'' :: rest) = some (text, rest) := by
  rw [readLiteral_escaped_append text _ fun last => absurd last closed, readLiteral]
  simp

theorem readLiteral_open (text rest : List Char) :
    readLiteral (escaped (text ++ ['\\']) ++ '\'' :: rest) =
      (readLiteral rest).map fun (more, after) => (text ++ '\'' :: more, after) := by
  have chars : escaped (text ++ ['\\']) ++ '\'' :: rest = escaped text ++ '\\' :: '\'' :: rest := by
    rw [escaped_append, List.append_assoc]
    rfl
  rw [chars, readLiteral_escaped_append _ _ fun _ => by simp, readLiteral, Option.map_map]
  rfl

def followed (texts : List (List Char)) : List Char :=
  texts.flatMap (fun text => ',' :: ' ' :: filterLiteral text) ++ [')']

theorem followed_cons (text : List Char) (more : List (List Char)) :
    followed (text :: more) = ',' :: ' ' :: '\'' :: (escaped text ++ '\'' :: followed more) := by
  simp [followed, filterLiteral, escaped]

theorem readMore_literal {chars text after : List Char}
    (read : readLiteral chars = some (text, after)) :
    readMore (',' :: ' ' :: '\'' :: chars) = (readMore after).map (text :: ·) := by
  rw [readMore]
  split
  · rename_i found same
    obtain ⟨rfl, rfl⟩ := Prod.mk.inj (Option.some.inj (same.symm.trans read))
    rfl
  · rename_i same
    rw [same] at read
    contradiction

theorem readMore_none {chars : List Char} (read : readLiteral chars = none) :
    readMore (',' :: ' ' :: '\'' :: chars) = none := by
  rw [readMore]
  split
  · rename_i found same
    rw [same] at read
    contradiction
  · rfl

theorem readMore_followed {texts : List (List Char)} (closed : ∀ text ∈ texts, ¬EndsOpen text) :
    readMore (followed texts) = some texts := by
  induction texts with
  | nil => rw [followed, List.flatMap_nil, List.nil_append, readMore]
  | cons text more ih =>
    obtain ⟨first, later⟩ := List.forall_mem_cons.mp closed
    rw [followed_cons, readMore_literal (readLiteral_closed first _), ih later]
    rfl

theorem eq_of_escaped_append {text late early rest : List Char} (noQuote : '\'' ∉ early)
    (noBackslash : '\\' ∉ early) (same : escaped text ++ '\'' :: late = early ++ '\'' :: rest) :
    text = early ∧ late = rest := by
  induction text generalizing early with
  | nil =>
    cases early with
    | nil => exact ⟨rfl, (List.cons.inj same).2⟩
    | cons c more =>
      obtain ⟨rfl, -⟩ := List.cons.inj same
      exact absurd List.mem_cons_self noQuote
  | cons c more ih =>
    by_cases quote : c = '\''
    · subst quote
      have starts : '\\' :: '\'' :: (escaped more ++ '\'' :: late) = early ++ '\'' :: rest := same
      cases early with
      | nil => simp at starts
      | cons d _ =>
        obtain ⟨rfl, -⟩ := List.cons.inj starts
        exact absurd List.mem_cons_self noBackslash
    · have starts : c :: (escaped more ++ '\'' :: late) = early ++ '\'' :: rest := by
        simpa [escaped, quote] using same
      cases early with
      | nil => exact absurd (List.cons.inj starts).1 quote
      | cons d rest =>
        obtain ⟨rfl, below⟩ := List.cons.inj starts
        obtain ⟨rfl, rfl⟩ := ih (List.not_mem_of_not_mem_cons noQuote)
          (List.not_mem_of_not_mem_cons noBackslash) below
        exact ⟨rfl, rfl⟩

theorem readMore_eq_some {chars : List Char} {texts : List (List Char)}
    (read : readMore chars = some texts) :
    chars = [')'] ∨ ∃ rest text after more, chars = ',' :: ' ' :: '\'' :: rest ∧
      readLiteral rest = some (text, after) ∧ readMore after = some more := by
  rw [readMore.eq_def] at read
  split at read
  · exact .inl rfl
  · rename_i rest
    split at read
    · rename_i text after inside
      obtain ⟨more, behind, -⟩ := Option.map_eq_some_iff.mp read
      exact .inr ⟨rest, text, after, more, rfl, inside, behind⟩
    · contradiction
  · contradiction

theorem readMore_escaped_eq_some {text late : List Char} {texts : List (List Char)}
    (read : readMore (escaped text ++ '\'' :: late) = some texts) :
    ∃ literal after more, readLiteral late = some (literal, after) ∧ readMore after = some more := by
  rcases readMore_eq_some read with close | ⟨rest, literal, after, more, starts, inside, behind⟩
  · have quote : '\'' ∈ [')'] := close ▸ List.mem_append_right _ List.mem_cons_self
    contradiction
  · have noQuote : '\'' ∉ [',', ' '] := by decide
    have noBackslash : '\\' ∉ [',', ' '] := by decide
    obtain ⟨-, rfl⟩ := eq_of_escaped_append noQuote noBackslash starts
    exact ⟨literal, after, more, inside, behind⟩

/-- Once a literal was taken for the text behind one, every quote is on the wrong side, so that the
bracket at the end is never found. -/
theorem readMore_lost (text : List Char) (more : List (List Char)) :
    readMore (escaped text ++ '\'' :: followed more) = none := by
  apply Option.eq_none_iff_forall_ne_some.mpr
  intro texts read
  induction more generalizing text texts with
  | nil =>
    obtain ⟨literal, after, found, inside, -⟩ := readMore_escaped_eq_some read
    contradiction
  | cons next later ih =>
    obtain ⟨literal, after, found, inside, behind⟩ := readMore_escaped_eq_some read
    have closes : readLiteral (followed (next :: later)) =
        some ([',', ' '], escaped next ++ '\'' :: followed later) := by
      rw [followed_cons]
      rfl
    rw [closes] at inside
    obtain ⟨-, rfl⟩ := Prod.mk.inj (Option.some.inj inside)
    exact ih next found behind

theorem readMore_followed_of_open {texts : List (List Char)} {text : List Char} (member : text ∈ texts)
    (ends : EndsOpen text) : readMore (followed texts) = none := by
  induction texts with
  | nil => contradiction
  | cons first more ih =>
    rw [followed_cons]
    by_cases here : EndsOpen first
    · obtain ⟨early, rfl⟩ := List.getLast?_eq_some_iff.mp here
      have inside := readLiteral_open early (followed more)
      cases more with
      | nil => exact readMore_none inside
      | cons next later =>
        -- The literal runs on to the opening quote of the next one.
        rw [followed_cons] at inside ⊢
        rw [readMore_literal inside]
        exact Option.map_eq_none_iff.mpr (readMore_lost next later)
    · have apart : text ≠ first := by
        rintro rfl
        exact here ends
      have below := ih (List.mem_of_ne_of_mem apart member)
      rw [readMore_literal (readLiteral_closed here _), below]
      rfl

def listed : List (List Char) → List Char
  | [] => [')']
  | text :: more => filterLiteral text ++ followed more

theorem intercalate_eq (texts : List (List Char)) :
    [',', ' '].intercalate (texts.map filterLiteral) ++ [')'] = listed texts := by
  induction texts with
  | nil => rfl
  | cons text more ih =>
    cases more with
    | nil => simp [listed, followed]
    | cons next later =>
      rw [List.map_cons, List.map_cons, List.intercalate_cons_cons, ← List.map_cons, List.append_assoc, ih]
      simp [listed, followed]

theorem toList_runFilter (runs : List String) :
    (runFilter runs).toList = "run_id IN (".toList ++ listed (runs.map String.toList) := by
  rw [← intercalate_eq, runFilter]
  simp [Function.comp_def]

theorem readLiterals_listed (texts : List (List Char)) :
    readLiterals (listed texts) = readMore (followed texts) := by
  cases texts with
  | nil =>
    rw [followed, List.flatMap_nil, List.nil_append, readMore]
    rfl
  | cons text more =>
    rw [followed_cons]
    simp [listed, filterLiteral, readLiterals, escaped]

theorem readFilter_runFilter (runs : List String) :
    readFilter (runFilter runs) =
      (readMore (followed (runs.map String.toList))).map (·.map String.ofList) := by
  have rest := List.isPrefixOf?_eq_some_iff_append_eq.mpr (toList_runFilter runs).symm
  rw [readFilter, rest, Option.bind_some, readLiterals_listed]

/-- The filter of runs names these runs, each in a literal of its own and in their order, when none of
them ends with a backslash. One that does leaves its literal open, and nothing can be read. -/
theorem filter_names_runs (runs : List String) :
    readFilter (runFilter runs) =
      if ∃ run ∈ runs, EndsOpen run.toList then none else some runs := by
  rw [readFilter_runFilter]
  split
  · rename_i some_open
    obtain ⟨run, member, ends⟩ := some_open
    rw [readMore_followed_of_open (List.mem_map_of_mem member) ends]
    rfl
  · rename_i none_open
    have closed : ∀ text ∈ runs.map String.toList, ¬EndsOpen text := by
      intro text member ends
      obtain ⟨run, given, rfl⟩ := List.mem_map.mp member
      exact none_open ⟨run, given, ends⟩
    rw [readMore_followed closed, Option.map_some, List.map_map]
    simp [Function.comp_def]

theorem second_run_outside_literals :
    let runs := ["a\\", "b"]
    runFilter runs = "run_id IN ('a\\', 'b')" ∧
      readLiteral "a\\', 'b')".toList = some ("a', ".toList, "b')".toList) ∧
      readFilter (runFilter runs) ≠ some runs := by
  intro runs
  have ends : EndsOpen "a\\".toList := by decide
  have unread : readMore (followed (runs.map String.toList)) = none :=
    readMore_followed_of_open List.mem_cons_self ends
  refine ⟨by decide, by decide, ?_⟩
  rw [readFilter_runFilter, unread]
  exact nofun

end RunBoard.FilterText
