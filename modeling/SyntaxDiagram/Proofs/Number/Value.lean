import SyntaxDiagram.Number
import Mathlib.Data.Rat.Floor
import Mathlib.Tactic.FieldSimp
import Mathlib.Tactic.Linarith
import Mathlib.Tactic.Ring

/-!
# Values of numbers

A finite number has a rational value, and `Number.ceil?` is its ceiling (`Number.ceil?_eq`).  So a
number that is not greater than another one has no greater ceiling (`Number.AtMost.ceil_le`).
-/

namespace SyntaxDiagram

/-! ### Ratios -/

theorem scaleRatio_snd_pos {base : Nat} (hbase : 0 < base) (power : Int) (num : Nat) {den : Nat}
    (hden : 0 < den) : 0 < (scaleRatio base power num den).2 := by
  unfold scaleRatio
  by_cases hpower : 0 ≤ power
  · rw [if_pos hpower]
    exact hden
  · rw [if_neg hpower]
    exact Nat.mul_pos hden (Nat.pow_pos hbase)

/-- A scaled ratio has the value of the ratio times the power. -/
theorem scaleRatio_value {base : Nat} (hbase : 0 < base) (power : Int) (num den : Nat) :
    ((scaleRatio base power num den).1 : ℚ) / (scaleRatio base power num den).2 =
      (num : ℚ) / den * (base : ℚ) ^ power := by
  have hne : (base : ℚ) ≠ 0 := by exact_mod_cast hbase.ne'
  unfold scaleRatio
  by_cases hpower : 0 ≤ power
  · obtain ⟨n, rfl⟩ := Int.eq_ofNat_of_zero_le hpower
    rw [if_pos hpower]
    show ((num * base ^ n : Nat) : ℚ) / (den : ℚ) = _
    rw [Nat.cast_mul, Nat.cast_pow, zpow_natCast]
    ring
  · obtain ⟨n, hn⟩ := Int.eq_ofNat_of_zero_le (show 0 ≤ -power by omega)
    obtain rfl : power = -(n : Int) := by omega
    rw [if_neg hpower]
    show (num : ℚ) / ((den * base ^ (- -(n : Int)).toNat : Nat) : ℚ) = _
    rw [neg_neg, Int.toNat_natCast, Nat.cast_mul, Nat.cast_pow, zpow_neg, zpow_natCast]
    field_simp

theorem ceil_natCast_div (num : Nat) {den : Nat} (hden : 0 < den) :
    ⌈(num : ℚ) / den⌉ = ((num + (den - 1)) / den : Nat) := by
  have hdivMod := Nat.div_add_mod (num + (den - 1)) den
  have hmod := Nat.mod_lt (num + (den - 1)) hden
  generalize (num + (den - 1)) / den = quotient at hdivMod ⊢
  have hbelow : ((den * quotient : Nat) : ℚ) < ((num + den : Nat) : ℚ) := by
    exact_mod_cast (show den * quotient < num + den by omega)
  have habove : ((num : Nat) : ℚ) ≤ ((den * quotient : Nat) : ℚ) := by
    exact_mod_cast (show num ≤ den * quotient by omega)
  have hpos : (0 : ℚ) < den := by exact_mod_cast hden
  push_cast at hbelow habove
  rw [Int.ceil_eq_iff, lt_div_iff₀ hpos, div_le_iff₀ hpos]
  push_cast
  constructor
  · linarith
  · linarith

/-! ### Doubles -/

namespace Binary64

/-- The value of a double; `none` unless it is finite. -/
def value? : Binary64 → Option ℚ
  | .finite negative significand exponent =>
    some (if negative then -(significand * 2 ^ exponent) else significand * 2 ^ exponent)
  | _ => none

theorem ceil?_eq (x : Binary64) : x.ceil? = x.value?.map Int.ceil := by
  cases x with
  | nan => rfl
  | infinity negative => rfl
  | finite negative significand exponent =>
    have hvalue := scaleRatio_value (show 0 < 2 by decide) exponent significand 1
    have hden := scaleRatio_snd_pos (show 0 < 2 by decide) exponent significand one_pos
    rw [Nat.cast_one, div_one, Nat.cast_ofNat] at hvalue
    generalize hratio : scaleRatio 2 exponent significand 1 = ratio at hvalue hden
    rw [ceil?, hratio, value?, Option.map_some, ← hvalue]
    -- below zero the ceiling is the floor of the magnitude
    cases negative with
    | true =>
      show some (-((ratio.1 / ratio.2 : Nat) : Int)) = some ⌈-((ratio.1 : ℚ) / ratio.2)⌉
      rw [Int.ceil_neg, Rat.floor_natCast_div_natCast, Int.natCast_div]
    | false =>
      show some (((ratio.1 + (ratio.2 - 1)) / ratio.2 : Nat) : Int) = some ⌈(ratio.1 : ℚ) / ratio.2⌉
      rw [ceil_natCast_div _ hden]

end Binary64

namespace Number

/-- The value of a number; `none` unless it is finite. -/
def value? : Number → Option ℚ
  | .int n => some n
  | .real x => x.value?

theorem ceil?_eq (x : Number) : x.ceil? = x.value?.map Int.ceil := by
  cases x with
  | int n => rw [ceil?, value?, Option.map_some, Int.ceil_intCast]
  | real x => exact x.ceil?_eq

/-- A number is finite and not greater than another one, which is finite as well. -/
def AtMost (x y : Number) : Prop :=
  ∃ a b, x.value? = some a ∧ y.value? = some b ∧ a ≤ b

/-- Rounding up keeps the order of numbers. -/
theorem AtMost.ceil_le {x y : Number} (h : x.AtMost y) {m n : Int} (hm : x.ceil? = some m)
    (hn : y.ceil? = some n) : m ≤ n := by
  obtain ⟨a, b, ha, hb, hle⟩ := h
  rw [ceil?_eq, ha, Option.map_some] at hm
  rw [ceil?_eq, hb, Option.map_some] at hn
  rw [← Option.some.inj hm, ← Option.some.inj hn]
  exact Int.ceil_le_ceil hle

end Number

end SyntaxDiagram
