import Mathlib.Data.List.Lex

namespace RunBoard.Text

def bytes (text : String) : List UInt8 := text.toUTF8.data.toList

theorem bytes_eq (text : String) : bytes text = text.toList.flatMap String.utf8EncodeChar := by
  have built : text.toUTF8 = (text.toList.flatMap String.utf8EncodeChar).toByteArray := by
    conv_lhs => rw [← String.ofList_toList (s := text)]
    rfl
  rw [bytes, built]
  simp

/-- The first byte at which two words differ ascends; neither word is the start of the other. -/
def FirstAscends : List UInt8 → List UInt8 → Prop
  | x :: xs, y :: ys => x < y ∨ x = y ∧ FirstAscends xs ys
  | _, _ => False

theorem FirstAscends.append_lt {xs ys : List UInt8} (ascends : FirstAscends xs ys)
    (more rest : List UInt8) : xs ++ more < ys ++ rest := by
  induction xs generalizing ys with
  | nil => exact ascends.elim
  | cons x xs ih =>
    cases ys with
    | nil => exact ascends.elim
    | cons y ys =>
      apply List.cons_lt_cons_iff.mpr
      rcases ascends with less | ⟨same, later⟩
      · exact .inl less
      · exact .inr ⟨same, ih later⟩

theorem firstAscends_encode {c d : Char} (less : c < d) :
    FirstAscends (String.utf8EncodeChar c) (String.utf8EncodeChar d) := by
  have values : c.val.toNat < d.val.toNat := less
  have top : d.val.toNat < 1114112 := by
    have valid := d.valid
    rcases valid with low | ⟨_, high⟩
    · exact Nat.lt_trans low (by decide)
    · exact high
  unfold String.utf8EncodeChar
  generalize c.val.toNat = v at *
  generalize d.val.toNat = w at *
  -- Digits to base 64 one below the other, where the number itself is large.
  have places (n : Nat) : n / 4096 = n / 64 / 64 ∧ n / 262144 = n / 64 / 64 / 64 := by omega
  dsimp only
  simp only [(places v).1, (places v).2, (places w).1, (places w).2]
  split_ifs <;>
    simp only [FirstAscends, UInt8.lt_iff_toNat_lt, ← UInt8.toNat_inj, UInt8.toNat_ofNat'] <;> omega

theorem flatMap_encode_lt {chars others : List Char} (less : chars < others) :
    chars.flatMap String.utf8EncodeChar < others.flatMap String.utf8EncodeChar := by
  induction less with
  | @nil c rest =>
    obtain ⟨x, xs, encoded⟩ := List.exists_cons_of_ne_nil (String.utf8EncodeChar_ne_nil (c := c))
    rw [List.flatMap_cons, encoded]
    exact List.nil_lt_cons ..
  | @cons c rest late _ ih =>
    rw [List.flatMap_cons, List.flatMap_cons]
    exact List.append_left_lt ih
  | @rel c rest d late first =>
    rw [List.flatMap_cons, List.flatMap_cons]
    exact (firstAscends_encode first).append_lt _ _

theorem bytes_lt_of_lt {a b : String} (less : a < b) : bytes a < bytes b := by
  rw [bytes_eq, bytes_eq]
  exact flatMap_encode_lt less

theorem bytes_le_iff (a b : String) : bytes a ≤ bytes b ↔ a ≤ b := by
  constructor
  · intro le above
    exact le (bytes_lt_of_lt above)
  · intro le above
    by_cases same : a = b
    · subst same
      exact List.lt_irrefl _ above
    · have less : a < b := Std.lt_of_le_of_ne le same
      exact List.lt_asymm above (bytes_lt_of_lt less)

end RunBoard.Text
