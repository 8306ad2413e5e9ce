import Mathlib.Tactic.Ring
import RunBoard.Json.Reader

namespace RunBoard

namespace Binary64

theorem roundHalfEven_le (num den : Nat) : roundHalfEven num den ≤ num / den + 1 := by
  simp only [roundHalfEven]
  split
  · omega
  · split <;> omega

theorem magnitude_ofMagnitude (negative : Bool) {magnitude : Nat} (small : magnitude < signBit) :
    (ofMagnitude negative magnitude).magnitude = magnitude := by
  unfold signBit at small
  cases negative <;> simp only [ofMagnitude, Binary64.magnitude, UInt64.toNat_ofNat', signBit] <;>
    simp only [Bool.false_eq_true, if_false, if_true] <;> omega

theorem unitExponent_one (num : Nat) :
    (num.log2 : Int) - 53 ≤ unitExponent num 1 ∧
      unitExponent num 1 ≤ max ((num.log2 : Int) - 52) (-1074) := by
  have one : Nat.log2 1 = 0 := rfl
  simp only [unitExponent, one]
  split <;> omega

theorem mantissa_le {num bits : Nat} {q : Int} (size : num < 2 ^ (bits + 1))
    (low : (bits : Int) - 53 ≤ q) :
    (if 0 ≤ q then roundHalfEven num (1 * Nat.pow 2 q.toNat)
      else roundHalfEven (num * Nat.pow 2 (-q).toNat) 1) ≤ 2 ^ 54 := by
  split
  · have wide : num < 2 ^ 54 * 2 ^ q.toNat := by
      rw [← Nat.pow_add]
      exact size.trans_le (Nat.pow_le_pow_right (by decide) (by omega))
    have quotient : num / 2 ^ q.toNat < 2 ^ 54 := Nat.div_lt_of_lt_mul (by rwa [Nat.mul_comm] at wide)
    have rounded := roundHalfEven_le num (1 * 2 ^ q.toNat)
    rw [Nat.one_mul] at rounded
    rw [Nat.one_mul]
    exact rounded.trans quotient
  · have scaled : num * 2 ^ (-q).toNat < 2 ^ (bits + 1) * 2 ^ (-q).toNat :=
      Nat.mul_lt_mul_of_pos_right size (Nat.two_pow_pos _)
    rw [← Nat.pow_add] at scaled
    have wide : 2 ^ (bits + 1 + (-q).toNat) ≤ 2 ^ 54 := Nat.pow_le_pow_right (by decide) (by omega)
    have rounded := roundHalfEven_le (num * 2 ^ (-q).toNat) 1
    rw [Nat.div_one] at rounded
    exact rounded.trans (scaled.trans_le wide)

theorem pattern_lt {q : Int} {m : Nat} (exponent : q ≤ 11) (mantissa : m ≤ 2 ^ 54) :
    (q + 1074).toNat * binade + m < infinityBits := by
  have steps : (q + 1074).toNat ≤ 1085 := by omega
  have scaled := Nat.mul_le_mul_right binade steps
  unfold infinityBits binade at *
  omega

theorem isFinite_ofInt {n : Int} (small : n.natAbs < UInt64.size) : (ofInt n).isFinite = true := by
  have bounds : infinityBits < signBit := by decide
  rw [ofInt, ofQuotient, isFinite, decide_eq_true_eq]
  split
  · rw [magnitude_ofMagnitude _ (by decide)]
    decide
  · rename_i pos
    obtain ⟨low, high⟩ := unitExponent_one n.natAbs
    have bits : n.natAbs.log2 < 64 := (Nat.log2_lt pos).mpr small
    have exponent : unitExponent n.natAbs 1 ≤ 11 := by omega
    have below := pattern_lt exponent (mantissa_le Nat.lt_log2_self low)
    dsimp only
    rw [Nat.min_eq_left below.le, magnitude_ofMagnitude _ (below.trans bounds)]
    exact below

end Binary64

namespace Json

/-- A value that a text can hold: its numbers are finite, and its integers have 64 bits. -/
inductive IsDocument : Json → Prop where
  | null : IsDocument null
  | bool (b : Bool) : IsDocument (bool b)
  | int (n : Int) (low : -2 ^ 63 ≤ n) (high : n < 2 ^ 64) : IsDocument (int n)
  | num (x : Binary64) (finite : x.isFinite = true) : IsDocument (num x)
  | str (s : String) : IsDocument (str s)
  | arr (items : List Json) (each : ∀ item ∈ items, IsDocument item) : IsDocument (arr items)
  | obj (fields : List (String × Json)) (each : ∀ field ∈ fields, IsDocument field.2) :
    IsDocument (obj fields)

theorem mapItems_eq (change : Binary64 → Json) (items : List Json) :
    mapItems change items = items.map (mapNumbers change) := by
  induction items with
  | nil => rfl
  | cons item rest ih => rw [mapItems, ih, List.map_cons]

theorem mapFields_eq (change : Binary64 → Json) (fields : List (String × Json)) :
    mapFields change fields = fields.map fun field => (field.1, field.2.mapNumbers change) := by
  induction fields with
  | nil => rfl
  | cons field rest ih => rw [mapFields, ih, List.map_cons]

theorem IsDocument.withoutNonFinite {j : Json} (document : j.IsDocument) :
    j.withoutNonFinite = j := by
  unfold Json.withoutNonFinite
  induction document with
  | null | bool | str | int => rfl
  | num x finite => rw [mapNumbers, if_pos finite]
  | arr items _ ih =>
    rw [mapNumbers, mapItems_eq, List.map_congr_left ih, List.map_id']
  | obj fields _ ih =>
    have same : ∀ field ∈ fields, (field.1, mapNumbers _ field.2) = field :=
      fun field member => Prod.ext rfl (ih field member)
    rw [mapNumbers, mapFields_eq, List.map_congr_left same, List.map_id']

namespace ReadsDocuments

variable {fuel : Nat} {text rest : List Char}

end ReadsDocuments

end Json

end RunBoard
