import SyntaxDiagram.Proofs.Number.Value
import Mathlib.Tactic.NormNum
import Mathlib.Algebra.Order.Field.Power

/-!
# Rounding of doubles

A ratio lies between two powers of the base whose exponents its floored logarithm gives
(`isFloorLog_floorLog2`, `isFloorLog_floorLog10`), and `halfEven` is off by one half at most
(`abs_halfEven_sub_le`).  So a ratio that is not tiny is rounded to a double with a relative error
of `2 ^ -53`, unless it is at least the greatest double (`Binary64.ofRatio_spec`).
-/

namespace SyntaxDiagram

/-! ### The nearest natural number -/

/-- Rounding half to even is off by half of the denominator at most. -/
theorem halfEven_bounds (num : Nat) {den : Nat} (hden : 0 < den) :
    2 * num ≤ 2 * (den * halfEven num den) + den ∧
      2 * (den * halfEven num den) ≤ 2 * num + den := by
  have hdivMod := Nat.div_add_mod num den
  have hmod := Nat.mod_lt num hden
  unfold halfEven
  dsimp only
  split_ifs with hbelow habove
  · omega
  · rw [Nat.mul_add, Nat.mul_one]
    omega
  · omega
  · rw [Nat.mul_add, Nat.mul_one]
    omega

/-- A ratio is at most one half away from what it is rounded to. -/
theorem abs_halfEven_sub_le (num : Nat) {den : Nat} (hden : 0 < den) :
    |(halfEven num den : ℚ) - num / den| ≤ 1 / 2 := by
  obtain ⟨hbelow, habove⟩ := halfEven_bounds num hden
  have hpos : (0 : ℚ) < den := by exact_mod_cast hden
  have hbelow' : 2 * (num : ℚ) ≤ 2 * (den * halfEven num den) + den := by exact_mod_cast hbelow
  have habove' : 2 * ((den : ℚ) * halfEven num den) ≤ 2 * num + den := by exact_mod_cast habove
  rw [abs_le, le_sub_iff_add_le, sub_le_iff_le_add, ← le_sub_iff_add_le', ← sub_le_iff_le_add',
    div_le_iff₀ hpos, le_div_iff₀ hpos]
  constructor
  · linarith
  · linarith

/-- A ratio nearer than one half to a natural number is rounded to it. -/
theorem halfEven_eq_of_abs_sub_lt {num den k : Nat} (hden : 0 < den)
    (h : |(num : ℚ) / den - k| < 1 / 2) : halfEven num den = k := by
  have hhalf := abs_halfEven_sub_le num hden
  rw [abs_le] at hhalf
  rw [abs_lt] at h
  have hbelow : (halfEven num den : ℚ) < (k + 1 : Nat) := by
    push_cast
    linarith
  have habove : (k : ℚ) < (halfEven num den + 1 : Nat) := by
    push_cast
    linarith
  have hbelow' := Nat.cast_lt.mp hbelow
  have habove' := Nat.cast_lt.mp habove
  omega

/-! ### Orders of magnitude -/

/-- A value lies between two powers of a base, the one with a given exponent and the next. -/
def IsFloorLog (base : Nat) (exponent : Int) (value : ℚ) : Prop :=
  (base : ℚ) ^ exponent ≤ value ∧ value < (base : ℚ) ^ (exponent + 1)

/-- A power that does not exceed a value has no greater exponent than its logarithm. -/
theorem IsFloorLog.le_of_le {base : Nat} {e f : Int} {value : ℚ} (hbase : 1 < base)
    (h : IsFloorLog base e value) (hle : (base : ℚ) ^ f ≤ value) : f ≤ e :=
  Int.lt_add_one_iff.mp
    ((zpow_lt_zpow_iff_right₀ (by exact_mod_cast hbase)).mp (hle.trans_lt h.2))

section

variable {base num den exponent : Nat}

/-- The logarithm of a ratio that is one or more is that of its whole part. -/
theorem isFloorLog_of_div (hden : 0 < den) (hbelow : base ^ exponent ≤ num / den)
    (habove : num / den < base ^ (exponent + 1)) :
    IsFloorLog base exponent ((num : ℚ) / den) := by
  have hpos : (0 : ℚ) < den := by exact_mod_cast hden
  rw [Nat.le_div_iff_mul_le hden] at hbelow
  rw [Nat.div_lt_iff_lt_mul hden] at habove
  refine ⟨?_, ?_⟩
  · rw [zpow_natCast, le_div_iff₀ hpos]
    exact_mod_cast hbelow
  · rw [← Nat.cast_succ, zpow_natCast, div_lt_iff₀ hpos]
    exact_mod_cast habove

/-- The logarithm of a ratio below one comes from that of its inverse. -/
theorem isFloorLog_of_inverse (hnum : 0 < num) (hden : 0 < den) (hbase : 0 < base)
    (hbelow : base ^ exponent ≤ (den - 1) / num)
    (habove : (den - 1) / num < base ^ (exponent + 1)) :
    IsFloorLog base (-(exponent + 1 : Int)) ((num : ℚ) / den) := by
  have hpos : (0 : ℚ) < den := by exact_mod_cast hden
  have hpow (n : Nat) : (0 : ℚ) < (base : ℚ) ^ n := pow_pos (by exact_mod_cast hbase) n
  rw [Nat.le_div_iff_mul_le hnum, mul_comm] at hbelow
  rw [Nat.div_lt_iff_lt_mul hnum, mul_comm] at habove
  refine ⟨?_, ?_⟩
  · rw [zpow_neg, ← Nat.cast_succ, zpow_natCast, ← one_div, div_le_div_iff₀ (hpow _) hpos, one_mul]
    exact_mod_cast (show den ≤ num * base ^ (exponent + 1) by omega)
  · rw [neg_add, neg_add_cancel_right, zpow_neg, zpow_natCast, ← one_div,
      div_lt_div_iff₀ hpos (hpow _), one_mul]
    exact_mod_cast (show num * base ^ exponent < den by omega)

theorem pred_div_pos (hnum : 0 < num) (hlt : num < den) : 0 < (den - 1) / num :=
  Nat.div_pos (by omega) hnum

/-- The binary exponent of a positive ratio is its logarithm. -/
theorem isFloorLog_floorLog2 (hnum : 0 < num) (hden : 0 < den) :
    IsFloorLog 2 (floorLog2 num den) ((num : ℚ) / den) := by
  unfold floorLog2
  split_ifs with hle
  · have hpos := Nat.div_pos hle hden
    exact isFloorLog_of_div hden (Nat.log2_self_le hpos.ne') Nat.lt_log2_self
  · have hpos := pred_div_pos hnum (not_le.mp hle)
    exact isFloorLog_of_inverse hnum hden two_pos (Nat.log2_self_le hpos.ne') Nat.lt_log2_self

/-- A positive number lies between the powers of ten that have as many digits, and one more. -/
theorem digitCount_bounds {n : Nat} (h : 0 < n) :
    ∃ count, digitCount n = count + 1 ∧ 10 ^ count ≤ n ∧ n < 10 ^ (count + 1) := by
  have hpos : 0 < digitCount n := Nat.length_toDigits_pos
  obtain ⟨count, hcount⟩ := Nat.exists_eq_add_one.mpr hpos
  have habove : n < 10 ^ (count + 1) :=
    (Nat.length_toDigits_le_iff (by decide) (by omega)).mp hcount.le
  refine ⟨count, hcount, ?_, habove⟩
  rcases Nat.eq_zero_or_pos count with rfl | hcountPos
  · exact h
  · by_contra hlt
    have hle := (Nat.length_toDigits_le_iff (b := 10) (by decide) hcountPos).mpr (not_le.mp hlt)
    have hlength : (Nat.toDigits 10 n).length = count + 1 := hcount
    omega

/-- The decimal exponent of a positive ratio is its logarithm. -/
theorem isFloorLog_floorLog10 (hnum : 0 < num) (hden : 0 < den) :
    IsFloorLog 10 (floorLog10 num den) ((num : ℚ) / den) := by
  unfold floorLog10
  split_ifs with hle
  · obtain ⟨count, hcount, hbelow, habove⟩ := digitCount_bounds (Nat.div_pos hle hden)
    rw [hcount, Nat.cast_succ, add_sub_cancel_right]
    exact isFloorLog_of_div hden hbelow habove
  · obtain ⟨count, hcount, hbelow, habove⟩ := digitCount_bounds (pred_div_pos hnum (not_le.mp hle))
    rw [hcount, Nat.cast_succ]
    exact isFloorLog_of_inverse hnum hden (by decide) hbelow habove

end

/-! ### The nearest double -/

/-- A magnitude with a sign. -/
def signed (negative : Bool) (magnitude : ℚ) : ℚ :=
  if negative then -magnitude else magnitude

theorem abs_signed (negative : Bool) (magnitude : ℚ) :
    |signed negative magnitude| = |magnitude| := by
  unfold signed
  split_ifs
  · exact abs_neg magnitude
  · rfl

theorem signed_sub_signed (negative : Bool) (a b : ℚ) :
    signed negative a - signed negative b = signed negative (a - b) := by
  unfold signed
  split_ifs
  · ring
  · rfl

namespace Binary64

/-- A significand with an exponent is off from a value by a small part of it, and the value is
between the powers of two that the significands with 53 bits start and end at. -/
structure IsRounded (significand : Nat) (exponent : Int) (value : ℚ) : Prop where
  close : |significand * (2 : ℚ) ^ exponent - value| * 2 ^ 53 ≤ value
  low : (2 : ℚ) ^ (exponent + 52) ≤ value + 2 ^ (exponent - 2)
  high : value < (2 : ℚ) ^ (exponent + 53)

section

variable {significand : Nat} {exponent : Int} {value : ℚ}
  (hlow : (2 : ℚ) ^ exponent * 2 ^ 52 ≤ value) (hhigh : value < (2 : ℚ) ^ exponent * 2 ^ 53)
  (herror : |significand * (2 : ℚ) ^ exponent - value| ≤ 1 / 2 * 2 ^ exponent)

include hlow hhigh herror

/-- A significand of 53 bits that is off by one half at most is rounded. -/
theorem isRounded_of_abs_le : IsRounded significand exponent value where
  close := by
    norm_num at hlow
    linarith
  low := by
    have hpos : (0 : ℚ) < 2 ^ (exponent - 2) := zpow_pos two_pos _
    rw [zpow_add₀ two_ne_zero, zpow_ofNat]
    linarith
  high := by rwa [zpow_add₀ two_ne_zero, zpow_ofNat]

/-- A significand that is rounded up to 54 bits is halved. -/
theorem isRounded_carry (hcarry : significand = 2 ^ 53) :
    IsRounded (2 ^ 52) (exponent + 1) value where
  close := by
    have hsame : ((2 ^ 52 : Nat) : ℚ) * 2 ^ (exponent + 1) = significand * 2 ^ exponent := by
      rw [zpow_add_one₀ two_ne_zero, hcarry]
      push_cast
      ring
    rw [hsame]
    norm_num at hlow
    linarith
  low := by
    have hbelow := (abs_le.mp herror).2
    rw [hcarry] at hbelow
    rw [show exponent + 1 + 52 = exponent + 53 by omega,
      show exponent + 1 - 2 = exponent + -1 by omega, zpow_add₀ two_ne_zero, zpow_add₀ two_ne_zero]
    norm_num at hbelow ⊢
    linarith
  high := by
    have hpos : (0 : ℚ) < 2 ^ exponent := zpow_pos two_pos _
    rw [show exponent + 1 + 53 = exponent + 54 by omega, zpow_add₀ two_ne_zero]
    norm_num at hhigh ⊢
    linarith

end

/-- A ratio that is a quarter or more has no exponent below that of a quarter. -/
theorem neg_two_le_floorLog2 {num den : Nat} (hden : 0 < den) (hnum : den ≤ 4 * num) :
    -2 ≤ floorLog2 num den := by
  have hdenPos : (0 : ℚ) < den := by exact_mod_cast hden
  have hcast : (den : ℚ) ≤ 4 * num := by exact_mod_cast hnum
  refine (isFloorLog_floorLog2 (by omega) hden).le_of_le one_lt_two ?_
  rw [le_div_iff₀ hdenPos]
  norm_num
  linarith

/-- The significand and the exponent of a ratio that is not tiny, before it is known whether the
exponent is too great. -/
theorem exists_isRounded {num den : Nat} (hden : 0 < den) (hnum : den ≤ 4 * num)
    (negative : Bool) :
    ∃ significand exponent, IsRounded significand exponent ((num : ℚ) / den) ∧
      ofRatio negative num den = if maxExponent < exponent then .infinity negative
        else .finite negative significand exponent := by
  have hpos : 0 < num := by omega
  have hlog := isFloorLog_floorLog2 hpos hden
  have htiny := neg_two_le_floorLog2 hden hnum
  have hmax : max (floorLog2 num den - 52) minExponent = floorLog2 num den - 52 :=
    max_eq_left (by rw [minExponent]; omega)
  unfold ofRatio
  rw [if_neg hpos.ne']
  dsimp only
  rw [hmax]
  rw [IsFloorLog, Nat.cast_ofNat] at hlog
  -- the exponent is such that the ratio has 53 bits in front of the point
  generalize hexponent : floorLog2 num den - 52 = exponent
  rw [show floorLog2 num den = exponent + 52 by omega,
    show exponent + 52 + 1 = exponent + 53 by omega, zpow_add₀ two_ne_zero,
    zpow_add₀ two_ne_zero, zpow_ofNat, zpow_ofNat] at hlog
  have hvalue := scaleRatio_value two_pos (-exponent) num den
  have hscaled := scaleRatio_snd_pos two_pos (-exponent) num hden
  generalize scaleRatio 2 (-exponent) num den = ratio at hvalue hscaled
  obtain ⟨num', den'⟩ := ratio
  have hhalf := abs_halfEven_sub_le num' hscaled
  dsimp only at hvalue hhalf ⊢
  rw [hvalue, Nat.cast_ofNat, zpow_neg] at hhalf
  generalize (num : ℚ) / den = value at hlog hhalf ⊢
  generalize halfEven num' den' = significand at hhalf ⊢
  have hunit : (0 : ℚ) < 2 ^ exponent := zpow_pos two_pos _
  have herror : |significand * (2 : ℚ) ^ exponent - value| ≤ 1 / 2 * 2 ^ exponent := by
    have hscale : significand * (2 : ℚ) ^ exponent - value =
        (significand - value * (2 ^ exponent)⁻¹) * 2 ^ exponent := by
      rw [sub_mul, inv_mul_cancel_right₀ hunit.ne']
    rw [hscale, abs_mul, abs_of_pos hunit]
    exact mul_le_mul_of_nonneg_right hhalf hunit.le
  by_cases hcarry : significand = Nat.pow 2 53
  · rw [if_pos hcarry]
    exact ⟨_, _, isRounded_carry hlog.1 hlog.2 herror hcarry, rfl⟩
  · rw [if_neg hcarry]
    exact ⟨_, _, isRounded_of_abs_le hlog.1 hlog.2 herror, rfl⟩

/-- A double is off from a value by a small part of it. -/
def Approximates (bits : Nat) (x : Binary64) (value : ℚ) : Prop :=
  ∃ v, x.value? = some v ∧ |v - value| * 2 ^ bits ≤ |value|

/-- What is close by many bits is close by fewer. -/
theorem Approximates.mono {bits bits' : Nat} {x : Binary64} {value : ℚ}
    (h : x.Approximates bits value) (hle : bits' ≤ bits) : x.Approximates bits' value := by
  obtain ⟨v, hv, hclose⟩ := h
  have hpow : (2 : ℚ) ^ bits' ≤ 2 ^ bits := pow_le_pow_right₀ one_le_two hle
  exact ⟨v, hv, (mul_le_mul_of_nonneg_left hpow (abs_nonneg _)).trans hclose⟩

/-- No infinity approximates a value. -/
theorem Approximates.isInfinite_eq_false {bits : Nat} {x : Binary64} {value : ℚ}
    (h : x.Approximates bits value) : x.isInfinite = false := by
  obtain ⟨v, hv, -⟩ := h
  cases x with
  | infinity negative => cases hv
  | _ => rfl

theorem value?_finite (negative : Bool) (significand : Nat) (exponent : Int) :
    (finite negative significand exponent).value? =
      some (signed negative (significand * 2 ^ exponent)) := rfl

theorem value?_zero (negative : Bool) : (zero negative).value? = some 0 := by
  rw [zero, value?_finite, Nat.cast_zero, zero_mul, signed, neg_zero, ite_self]

/-- A ratio that is not tiny is approximated, unless it is too great. -/
theorem ofRatio_spec {num den : Nat} (hden : 0 < den) (hnum : den ≤ 4 * num) (negative : Bool) :
    (ofRatio negative num den).Approximates 53 (signed negative (num / den)) ∧
        (num : ℚ) / den < 2 ^ 1024 ∨
      ofRatio negative num den = .infinity negative ∧ (2 : ℚ) ^ 1024 - 2 ^ 970 ≤ num / den := by
  obtain ⟨significand, exponent, ⟨hclose, hbelow, habove⟩, heq⟩ :=
    exists_isRounded hden hnum negative
  have hnonneg : (0 : ℚ) ≤ num / den := by positivity
  rw [heq]
  split_ifs with hgreat
  · -- an exponent past the greatest one leaves no finite double
    rw [maxExponent] at hgreat
    have hone : (1 : ℚ) ≤ 2 ^ (exponent - 972) := one_le_zpow₀ one_le_two (by omega)
    have hgap : (0 : ℚ) ≤ 2 ^ 1024 - 2 ^ 970 :=
      sub_nonneg.mpr (pow_le_pow_right₀ one_le_two (by decide))
    rw [show exponent + 52 = exponent - 972 + 1024 by omega,
      show exponent - 2 = exponent - 972 + 970 by omega, zpow_add₀ two_ne_zero,
      zpow_add₀ two_ne_zero, zpow_ofNat, zpow_ofNat] at hbelow
    refine Or.inr ⟨rfl, ?_⟩
    calc (2 : ℚ) ^ 1024 - 2 ^ 970 ≤ 2 ^ (exponent - 972) * (2 ^ 1024 - 2 ^ 970) :=
          le_mul_of_one_le_left hgap hone
      _ = 2 ^ (exponent - 972) * 2 ^ 1024 - 2 ^ (exponent - 972) * 2 ^ 970 := mul_sub ..
      _ ≤ num / den := sub_le_iff_le_add.mpr hbelow
  · -- the rounded significand fits
    refine Or.inl ⟨⟨_, value?_finite .., ?_⟩, ?_⟩
    · rw [signed_sub_signed, abs_signed, abs_signed, abs_of_nonneg hnonneg]
      exact hclose
    · have hpow : (2 : ℚ) ^ (exponent + 53) ≤ 2 ^ (1024 : Int) :=
        zpow_le_zpow_right₀ one_le_two (by rw [maxExponent] at hgreat; omega)
      exact habove.trans_le hpow

/-- A ratio is its magnitude with its sign. -/
theorem signed_natAbs_div (n : Int) (den : Nat) :
    signed (decide (n < 0)) ((n.natAbs : ℚ) / den) = n / den := by
  unfold signed
  rcases lt_or_ge n 0 with hneg | hnonneg
  · rw [decide_eq_true hneg, if_pos rfl, Nat.cast_natAbs, abs_of_neg hneg, Int.cast_neg, neg_div,
      neg_neg]
  · rw [decide_eq_false (not_lt.mpr hnonneg), if_neg Bool.false_ne_true, Nat.cast_natAbs,
      abs_of_nonneg hnonneg]

/-- An integer, or a half or a quarter of one, is approximated, unless it is too great. -/
theorem ofRatio_int_spec (n : Int) {den : Nat} (hden : 0 < den) (hle : den ≤ 4) :
    (ofRatio (n < 0) n.natAbs den).Approximates 53 ((n : ℚ) / den) ∧ |(n : ℚ) / den| < 2 ^ 1024 ∨
      (ofRatio (n < 0) n.natAbs den).isInfinite ∧ (2 : ℚ) ^ 1024 - 2 ^ 970 ≤ |(n : ℚ) / den| := by
  rcases eq_or_ne n 0 with rfl | hn
  · rw [Int.cast_zero, zero_div, abs_zero]
    exact Or.inl ⟨⟨0, value?_zero _, by simp⟩, by positivity⟩
  · have hnum : den ≤ 4 * n.natAbs := by omega
    have hnonneg : (0 : ℚ) ≤ n.natAbs / den := by positivity
    rw [← signed_natAbs_div, abs_signed, abs_of_nonneg hnonneg]
    refine (ofRatio_spec hden hnum (n < 0)).imp_right fun ⟨hinfinite, hgreat⟩ => ⟨?_, hgreat⟩
    rw [hinfinite]
    rfl

/-- A multiple of a power of two that is not tiny is approximated, unless it is too great. -/
theorem ofDyadic_spec {m : Nat} {e : Int} (h : 1 / 4 ≤ (m : ℚ) * 2 ^ e) (negative : Bool) :
    (ofDyadic negative m e).Approximates 53 (signed negative (m * 2 ^ e)) ∨
      ofDyadic negative m e = .infinity negative ∧ (2 : ℚ) ^ 1024 - 2 ^ 970 ≤ m * 2 ^ e := by
  have hratio := scaleRatio_value two_pos e m 1
  have hden := scaleRatio_snd_pos two_pos e m one_pos
  rw [Nat.cast_one, div_one, Nat.cast_ofNat] at hratio
  rw [ofDyadic]
  generalize scaleRatio 2 e m 1 = ratio at hratio hden ⊢
  obtain ⟨num, den⟩ := ratio
  rw [← hratio] at h ⊢
  have hnum : den ≤ 4 * num := by
    have hpos : (0 : ℚ) < den := by exact_mod_cast hden
    rw [div_le_div_iff₀ (by norm_num) hpos, one_mul] at h
    have hle : den ≤ num * 4 := by exact_mod_cast h
    omega
  exact (ofRatio_spec hden hnum negative).imp_left And.left

/-! ### Sums -/

/-- Scaling a significand down to a lower exponent keeps its value. -/
theorem signedAt_value {low exponent : Int} (hle : low ≤ exponent) (negative : Bool)
    (significand : Nat) :
    (signedAt low negative significand exponent : ℚ) * 2 ^ low =
      signed negative (significand * 2 ^ exponent) := by
  obtain ⟨shift, hshift⟩ := Int.eq_ofNat_of_zero_le (sub_nonneg.mpr hle)
  have hpow : (2 : ℚ) ^ exponent = 2 ^ shift * 2 ^ low := by
    rw [← zpow_natCast, ← zpow_add₀ two_ne_zero, ← hshift, sub_add_cancel]
  rw [signedAt, hshift, Int.toNat_natCast, signed, hpow]
  cases negative with
  | true =>
    show ((-((significand * 2 ^ shift : Nat) : Int) : Int) : ℚ) * 2 ^ low = -_
    push_cast
    ring
  | false =>
    show (((significand * 2 ^ shift : Nat) : Int) : ℚ) * 2 ^ low = _
    push_cast
    ring

/-- An integer on a scale that stands for a positive value is approximated, unless the value is tiny
or too great. -/
theorem ofDyadic_int_spec {n low : Int} {value : ℚ} (hvalue : (n : ℚ) * 2 ^ low = value)
    (hquarter : 1 / 4 ≤ value) :
    (ofDyadic (n < 0) n.natAbs low).Approximates 53 value ∨
      ofDyadic (n < 0) n.natAbs low = .infinity false ∧ (2 : ℚ) ^ 1024 - 2 ^ 970 ≤ value := by
  have hunit : (0 : ℚ) < 2 ^ low := zpow_pos two_pos _
  have hnonneg : 0 ≤ n := by
    have hcast : (0 : ℚ) ≤ n := nonneg_of_mul_nonneg_left (by linarith) hunit
    exact_mod_cast hcast
  have hnat : ((n.natAbs : Nat) : ℚ) * 2 ^ low = value := by
    rw [Nat.cast_natAbs, abs_of_nonneg hnonneg, hvalue]
  rw [decide_eq_false (not_lt.mpr hnonneg), ← hnat]
  rw [← hnat] at hquarter
  exact ofDyadic_spec hquarter false

/-- A sum of doubles that are not negative is approximated, unless it is tiny or too great. -/
theorem add_spec {x y : Binary64} {a b : ℚ} (hx : x.value? = some a) (hy : y.value? = some b)
    (hsum : a + b = 0 ∨ 1 / 4 ≤ a + b) :
    (x.add y).Approximates 53 (a + b) ∨
      x.add y = .infinity false ∧ (2 : ℚ) ^ 1024 - 2 ^ 970 ≤ a + b := by
  cases x with
  | finite negative significand exponent =>
    cases y with
    | finite negative' significand' exponent' =>
      rw [value?_finite, Option.some.injEq] at hx hy
      rw [add]
      -- at the lower one of the exponents, both significands are integers
      have hfirst := signedAt_value (min_le_left exponent exponent') negative significand
      have hsecond := signedAt_value (min_le_right exponent exponent') negative' significand'
      rw [hx] at hfirst
      rw [hy] at hsecond
      generalize signedAt (min exponent exponent') negative significand exponent = m at hfirst ⊢
      generalize signedAt (min exponent exponent') negative' significand' exponent' = n
        at hsecond ⊢
      generalize min exponent exponent' = low at hfirst hsecond ⊢
      have hvalue : ((m + n : Int) : ℚ) * 2 ^ low = a + b := by
        rw [Int.cast_add, add_mul, hfirst, hsecond]
      generalize m + n = sum at hvalue ⊢
      split_ifs with hzero
      · -- nothing is left, which is exact
        rw [hzero, Int.cast_zero, zero_mul] at hvalue
        rw [← hvalue]
        exact Or.inl ⟨0, value?_zero _, by simp⟩
      · -- the exact sum is rounded once
        refine ofDyadic_int_spec hvalue (hsum.resolve_left fun h => ?_)
        have hunit : (2 : ℚ) ^ low ≠ 0 := (zpow_pos two_pos _).ne'
        rw [h, mul_eq_zero, or_iff_left hunit] at hvalue
        exact hzero (by exact_mod_cast hvalue)
    | _ => cases hy
  | _ => cases hx

end Binary64

end SyntaxDiagram
