import RunBoard.Settings.Document

namespace RunBoard

theorem Text.hexValue?_of_isDigit {c : Char} (digit : c.isDigit = true) :
    hexValue? c = some (c.toNat - '0'.toNat) := by
  simp only [Char.isDigit, Bool.and_eq_true, decide_eq_true_eq] at digit
  have range : (decide ('0' ≤ c) && decide (c ≤ '9')) = true := by
    simpa [Char.le_def] using digit
  rw [hexValue?, if_pos range]

theorem Text.mapM_hexValue? {digits : List Char} (all : ∀ c ∈ digits, c.isDigit = true) :
    digits.mapM hexValue? = some (digits.map fun c => c.toNat - '0'.toNat) := by
  induction digits with
  | nil => rfl
  | cons c rest ih =>
    obtain ⟨first, others⟩ := List.forall_mem_cons.mp all
    rw [List.mapM_cons, hexValue?_of_isDigit first, ih others]
    rfl

namespace Settings

theorem isDigit_of_mem_toDigits {n : Nat} {c : Char} (member : c ∈ Nat.toDigits 10 n) :
    c.isDigit = true :=
  Nat.isDigit_of_mem_toDigits (by decide) (by decide) member

theorem eq_zero_of_head_toDigits {n : Nat} (zero : (Nat.toDigits 10 n).head? = some '0') : n = 0 := by
  induction n using Nat.strongRecOn with
  | ind n ih =>
    by_cases small : n < 10
    · rw [Nat.toDigits_of_lt_base small] at zero
      exact Nat.digitChar_eq_zero.mp (Option.some.inj zero)
    · rw [Nat.toDigits_of_base_le (by decide) (by omega)] at zero
      have front : (Nat.toDigits 10 (n / 10)).head? = some '0' := by
        have given : Nat.toDigits 10 (n / 10) ≠ [] := Nat.toDigits_ne_nil
        obtain ⟨c, rest, same⟩ := List.exists_cons_of_ne_nil given
        rwa [same] at zero ⊢
      have tenth := ih (n / 10) (by omega) front
      omega

theorem digits?_toDigits {n : Nat} (small : n < UInt64.size) :
    digits? 10 (Nat.toDigits 10 n) = some (.ofNat n) := by
  have given : (Nat.toDigits 10 n).isEmpty = false := by simp
  have read := Text.mapM_hexValue? fun c member => isDigit_of_mem_toDigits (n := n) member
  have value : ((Nat.toDigits 10 n).map fun c => c.toNat - '0'.toNat).foldl
      (fun n d => 10 * n + d) 0 = n := by
    rw [List.foldl_map]
    exact Nat.ofDigitChars_ten_toDigits
  have each : ((Nat.toDigits 10 n).map fun c => c.toNat - '0'.toNat).all (· < 10) = true := by
    simp only [List.all_map, List.all_eq_true, Function.comp_apply, decide_eq_true_eq]
    intro c member
    have digit := isDigit_of_mem_toDigits member
    simp only [Char.isDigit, Bool.and_eq_true, decide_eq_true_eq, UInt32.le_iff_toNat_le] at digit
    have last : c.toNat ≤ 57 := digit.2
    have first : '0'.toNat = 48 := rfl
    omega
  rw [digits?, given, read]
  simp only [Bool.false_eq_true, if_false, Option.bind_eq_bind, Option.bind_some, value, each, small,
    decide_true, Bool.and_self, if_true]

theorem decimal?_toDigits {n : Nat} (small : n < UInt64.size) :
    decimal? (Nat.toDigits 10 n) = some (.ofNat n) := by
  rw [decimal?, if_neg, digits?_toDigits small]
  simp only [Bool.and_eq_true, decide_eq_true_eq, beq_iff_eq]
  rintro ⟨long, zero⟩
  rw [eq_zero_of_head_toDigits zero] at long
  contradiction

theorem unsigned_digits (chars : List Char) : (∀ c ∈ chars, c.isDigit = true) →
    (match chars with
      | '+' :: rest => rest
      | chars => chars) = chars := by
  intro digit
  split
  · exact absurd (digit _ List.mem_cons_self) (by decide)
  · rfl

/-- A number is read back from its decimal digits, none of which is taken for a sign or for the mark
of a base. -/
theorem number?_toString (v : UInt64) : number? (toString v.toNat) = some v := by
  have digits : (toString v.toNat).toList = Nat.toDigits 10 v.toNat := by
    rw [Nat.toString_eq_repr, Nat.toList_repr]
  have digit : ∀ c ∈ Nat.toDigits 10 v.toNat, c.isDigit = true := fun _ => isDigit_of_mem_toDigits
  have read := decimal?_toDigits v.toNat_lt
  rw [UInt64.ofNat_toNat] at read
  rw [number?, digits]
  generalize Nat.toDigits 10 v.toNat = chars at digit read
  have unsigned := unsigned_digits chars digit
  have marked : ∀ mark rest, mark.isDigit = false → chars ≠ '0' :: mark :: rest := by
    rintro mark rest foreign rfl
    rw [digit mark (List.mem_cons_of_mem _ List.mem_cons_self)] at foreign
    contradiction
  split
  · rename_i same
    exact absurd (unsigned.symm.trans same) (marked _ _ rfl)
  · rename_i same
    exact absurd (unsigned.symm.trans same) (marked _ _ rfl)
  · rename_i same
    exact absurd (unsigned.symm.trans same) (marked _ _ rfl)
  · exact (congrArg decimal? unsigned).trans read

end Settings

end RunBoard
