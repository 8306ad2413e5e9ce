import Mathlib.Data.List.Chain
import RunBoard.Proofs.Compare.Rows
import RunBoard.Proofs.Number.Comparison

namespace RunBoard.Compare

variable {α β : Type}

def agreeBy (agree : α → α → Bool) : Option α → Option α → Bool
  | some a, some b => agree a b
  | none, none => true
  | _, _ => false

def SomePair (apart : α → α → Prop) (values : List α) : Prop :=
  ∃ (i j : Nat) (v w : α), i < j ∧ values[i]? = some v ∧ values[j]? = some w ∧ apart v w

theorem somePair_iff_not_pairwise (relation : α → α → Prop) (values : List α) :
    SomePair (fun v w => ¬relation v w) values ↔ ¬values.Pairwise relation := by
  rw [List.pairwise_iff_getElem]
  constructor
  · rintro ⟨i, j, v, w, order, left, right, apart⟩ pairs
    obtain ⟨iBound, rfl⟩ := List.getElem?_eq_some_iff.mp left
    obtain ⟨jBound, rfl⟩ := List.getElem?_eq_some_iff.mp right
    exact apart (pairs i j iBound jBound order)
  · intro broken
    simp only [not_forall] at broken
    obtain ⟨i, j, iBound, jBound, order, apart⟩ := broken
    exact ⟨i, j, values[i], values[j], order, List.getElem?_eq_getElem iBound,
      List.getElem?_eq_getElem jBound, apart⟩

theorem differBy_cons_cons (agree : α → α → Bool) (v w : Option α) (rest : List (Option α)) :
    differBy agree (v :: w :: rest) = (!agreeBy agree v w || differBy agree (w :: rest)) := by
  cases v <;> cases w <;> simp [differBy, agreeBy]

theorem differBy_eq_false_iff (agree : α → α → Bool) (values : List (Option α)) :
    differBy agree values = false ↔ values.IsChain fun v w => agreeBy agree v w = true := by
  induction values with
  | nil => simp [differBy]
  | cons v rest ih =>
    cases rest with
    | nil => simp [differBy]
    | cons w rest =>
      rw [differBy_cons_cons, List.isChain_cons_cons, ← ih, Bool.or_eq_false_iff,
        Bool.not_eq_false']

section

variable {agree : α → α → Bool}
  (trans : ∀ a b c, agree a b = true → agree b c = true → agree a c = true)
  (symm : ∀ a b, agree a b = true → agree b a = true)

include trans in
theorem agreeBy_trans (u v w : Option α) (uv : agreeBy agree u v = true)
    (vw : agreeBy agree v w = true) : agreeBy agree u w = true := by
  cases v with
  | none => cases u <;> cases w <;> simp_all [agreeBy]
  | some b =>
    rcases u with - | a
    · contradiction
    · rcases w with - | c
      · contradiction
      · exact trans a b c uv vw

include symm in
theorem agreeBy_symm (v w : Option α) (vw : agreeBy agree v w = true) :
    agreeBy agree w v = true := by
  rcases v with - | a <;> rcases w with - | b
  · rfl
  · contradiction
  · contradiction
  · exact symm a b vw

include trans in
theorem differBy_eq_false_iff_pairwise (values : List (Option α)) :
    differBy agree values = false ↔ values.Pairwise fun v w => agreeBy agree v w = true := by
  have : Trans (fun v w => agreeBy agree v w = true) (fun v w => agreeBy agree v w = true)
      (fun v w => agreeBy agree v w = true) := ⟨agreeBy_trans trans _ _ _⟩
  rw [differBy_eq_false_iff, List.isChain_iff_pairwise]

include trans in
theorem differBy_eq_true_iff (values : List (Option α)) :
    differBy agree values = true ↔ SomePair (fun v w => ¬agreeBy agree v w = true) values := by
  rw [somePair_iff_not_pairwise, ← differBy_eq_false_iff_pairwise trans, Bool.not_eq_false]

include trans symm in
theorem differBy_perm {values other : List (Option α)} (permuted : values.Perm other) :
    differBy agree values = differBy agree other := by
  have pairs : values.Pairwise (fun v w => agreeBy agree v w = true) ↔
      other.Pairwise fun v w => agreeBy agree v w = true :=
    permuted.pairwise_iff fun {v w} => agreeBy_symm symm v w
  rw [← differBy_eq_false_iff_pairwise trans, ← differBy_eq_false_iff_pairwise trans] at pairs
  exact Bool.eq_iff_iff.mpr (by simpa using not_congr pairs)

end

theorem agreeBy_eq_iff (v w : Option String) : agreeBy (· == ·) v w = true ↔ v = w := by
  cases v <;> cases w <;> simp [agreeBy]

theorem textsDiffer_iff (values : List (Option String)) :
    textsDiffer values = true ↔ SomePair (· ≠ ·) values := by
  have trans (a b c : String) (ab : (a == b) = true) (bc : (b == c) = true) : (a == c) = true := by
    rw [eq_of_beq ab]
    exact bc
  rw [textsDiffer, differBy_eq_true_iff trans]
  simp only [agreeBy_eq_iff]

theorem textsDiffer_perm {values other : List (Option String)} (permuted : values.Perm other) :
    textsDiffer values = textsDiffer other := by
  apply differBy_perm _ _ permuted
  · intro a b c ab bc
    rw [eq_of_beq ab]
    exact bc
  · intro a b ab
    rw [eq_of_beq ab]
    exact BEq.rfl

theorem numbersDiffer_iff (values : List (Option Binary64)) :
    numbersDiffer values = true ↔ SomePair (fun v w => agreeBy Binary64.same v w = false) values := by
  rw [numbersDiffer, differBy_eq_true_iff Binary64.same_trans]
  simp only [Bool.not_eq_true]

def reorder (order : List Nat) (items : List α) : List α := order.filterMap (items[·]?)

def Row.reorder (order : List Nat) (row : Row) : Row :=
  { row with values := Compare.reorder order row.values }

theorem reorder_map (order : List Nat) (f : α → β) (items : List α) :
    reorder order (items.map f) = (reorder order items).map f := by
  unfold reorder
  rw [List.map_filterMap]
  simp only [List.getElem?_map]

theorem reorder_range (items : List α) : reorder (List.range items.length) items = items := by
  unfold reorder
  induction items using List.reverseRecOn with
  | nil => rfl
  | append_singleton earlier item ih =>
    have kept : (List.range earlier.length).filterMap ((earlier ++ [item])[·]?) =
        (List.range earlier.length).filterMap (earlier[·]?) := by
      apply List.filterMap_congr
      intro i member
      exact List.getElem?_append_left (List.mem_range.mp member)
    rw [List.length_append, List.length_singleton, List.range_succ, List.filterMap_append, kept, ih]
    simp

theorem reorder_perm {order : List Nat} {items : List α}
    (permuted : order.Perm (List.range items.length)) : (reorder order items).Perm items := by
  have moved := permuted.filterMap (items[·]?)
  have all := reorder_range items
  unfold reorder at all
  rw [all] at moved
  exact moved

theorem allKeys_perm {tables other : List (Table β)} (permuted : tables.Perm other) :
    allKeys tables = allKeys other := by
  have keys : (allKeys tables).Perm (allKeys other) := by
    apply (List.perm_ext_iff_of_nodup (nodup_allKeys tables) (nodup_allKeys other)).mpr
    intro key
    simp only [mem_allKeys, permuted.mem_iff]
  exact keys.eq_of_pairwise (fun a b _ _ ab ba => (String.lt_asymm ab ba).elim)
    (Table.keys_lt _) (Table.keys_lt _)

theorem row_reorder {order : List Nat} {tables : List (Table String)}
    (permuted : order.Perm (List.range tables.length)) (key : String) :
    row (reorder order tables) key = (row tables key).reorder order := by
  have moved := reorder_map order (fun table : Table String => table[key]?) tables
  have same : textsDiffer (reorder order (tables.map (·[key]?))) = textsDiffer (tables.map (·[key]?)) := by
    apply textsDiffer_perm
    apply reorder_perm
    rw [List.length_map]
    exact permuted
  rw [moved] at same
  simp only [row, Row.reorder, moved, same]

theorem rows_reorder {order : List Nat} {tables : List (Table String)}
    (permuted : order.Perm (List.range tables.length)) :
    rows (reorder order tables) = (rows tables).map (Row.reorder order) := by
  rw [rows, rows, allKeys_perm (reorder_perm permuted), List.map_map]
  apply List.map_congr_left
  intro key _
  exact row_reorder permuted key

/-- One row for each key of a table, in the order of the keys, with the value of every table and
whether two of these differ. -/
structure Lays (tables : List (Table String)) (rows : List Row) : Prop where
  once : (rows.map (·.key)).Nodup
  keys (key : String) : key ∈ rows.map (·.key) ↔ ∃ table ∈ tables, key ∈ table
  order : ∃ keys : List String, keys.Pairwise (· < ·) ∧ rows.map (·.key) = sortKeys keys
  values : ∀ row ∈ rows, row.values = tables.map (·[row.key]?)
  diffs : ∀ row ∈ rows, row.diff = true ↔ SomePair (· ≠ ·) row.values

theorem lays_rows (tables : List (Table String)) : Lays tables (rows tables) where
  once := by
    rw [keys_rows]
    exact (sortKeys_perm _).nodup_iff.mpr (nodup_allKeys tables)
  keys key := by rw [keys_rows, (sortKeys_perm _).mem_iff, mem_allKeys]
  order := ⟨allKeys tables, Table.keys_lt _, keys_rows tables⟩
  values row member := by
    obtain ⟨key, -, rfl⟩ := List.mem_map.mp member
    rfl
  diffs row member := by
    obtain ⟨key, -, rfl⟩ := List.mem_map.mp member
    exact textsDiffer_iff _

/-- The rows of tables, for the tables in any order, and what it means that values differ. -/
theorem rows_show_differences (tables : List (Table String)) :
    Lays tables (rows tables) ∧
      (∀ order : List Nat, order.Perm (List.range tables.length) →
        rows (reorder order tables) = (rows tables).map (Row.reorder order)) ∧
      (∀ values : List (Option String), textsDiffer values = true ↔ SomePair (· ≠ ·) values) ∧
      ∀ values : List (Option Binary64),
        numbersDiffer values = true ↔ SomePair (fun v w => agreeBy Binary64.same v w = false) values :=
  ⟨lays_rows tables, fun _ => rows_reorder, textsDiffer_iff, numbersDiffer_iff⟩

theorem rows_show_differences_moved :
    let tables : List (Table String) := [.ofPairs [("rate", "1")], ∅, .ofPairs [("rate", "1")]]
    let order := [2, 0, 1]
    order.Perm (List.range tables.length) ∧
      rows (reorder order tables) = (rows tables).map (Row.reorder order) ∧
      rows (reorder order tables) = [⟨"rate", [some "1", some "1", none], true⟩] := by
  intro tables order
  have permuted : order.Perm (List.range tables.length) := by decide
  exact ⟨permuted, (rows_show_differences tables).2.1 order permuted, by decide +kernel⟩

end RunBoard.Compare
