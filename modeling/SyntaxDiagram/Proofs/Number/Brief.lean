import SyntaxDiagram.Proofs.Except
import SyntaxDiagram.Proofs.Number.Decimal

/-!
# Six significant digits

The text of a double has six significant digits.  So a value that a double approximates closely is
read back from that text iff the value has no more than six (`Binary64.readDecimal?_brief`): with
that few, no double rounds to other digits before it is written.  The texts of integers and of the
middles of stretches of track are such texts (`Number.isBriefText_int`,
`Number.isBriefText_middle`).
-/

namespace SyntaxDiagram

/-- A value has six significant decimal digits, or fewer. -/
def SixDigits (value : ℚ) : Prop :=
  ∃ (digits : Int) (exponent : Int), |digits| < 10 ^ 6 ∧ value = digits * 10 ^ exponent

theorem sixDigits_zero : SixDigits 0 :=
  ⟨0, 0, by decide, by rw [Int.cast_zero, zero_mul]⟩

/-- The sign makes no difference to the number of digits. -/
theorem sixDigits_neg_iff {value : ℚ} : SixDigits (-value) ↔ SixDigits value := by
  have hneg {value : ℚ} (h : SixDigits value) : SixDigits (-value) := by
    obtain ⟨digits, exponent, hbound, rfl⟩ := h
    exact ⟨-digits, exponent, by rwa [abs_neg], by rw [Int.cast_neg, neg_mul]⟩
  exact ⟨fun h => neg_neg value ▸ hneg h, hneg⟩

/-- Six digits that are rounded up to seven end in zeros. -/
theorem sixDigits_of_le {n : Nat} (h : n ≤ 10 ^ 6) (exponent : Int) :
    SixDigits (n * 10 ^ exponent) := by
  rcases h.lt_or_eq with hlt | rfl
  · refine ⟨n, exponent, ?_, by rw [Int.cast_natCast]⟩
    rw [Nat.abs_cast]
    exact_mod_cast hlt
  · refine ⟨1, exponent + 6, by decide, ?_⟩
    rw [zpow_add₀ (by norm_num)]
    norm_num
    ring

/-- On a finer scale, digits are followed by zeros. -/
theorem exists_int_of_le {exponent exponent' : Int} (hle : exponent ≤ exponent') (digits : Int) :
    ∃ n : Int, (digits : ℚ) * 10 ^ exponent' = n * 10 ^ exponent := by
  obtain ⟨shift, hshift⟩ := Int.eq_ofNat_of_zero_le (sub_nonneg.mpr hle)
  refine ⟨digits * 10 ^ shift, ?_⟩
  rw [show exponent' = shift + exponent by omega, zpow_add₀ (by norm_num), zpow_natCast]
  push_cast
  ring

/-- Between two neighbours with six digits there is no value with six digits. -/
theorem not_sixDigits_of_between {n : Nat} {exponent : Int} {value : ℚ} (hn : 10 ^ 5 ≤ n)
    (hbelow : n * 10 ^ exponent < value) (habove : value < (n + 1) * 10 ^ exponent) :
    ¬ SixDigits value := by
  rintro ⟨digits, exponent', hbound, rfl⟩
  have hpos : (0 : ℚ) < 10 ^ exponent := zpow_pos (by norm_num) _
  have hn' : (10 : ℚ) ^ 5 ≤ n := by exact_mod_cast hn
  rcases lt_or_ge exponent' exponent with hlt | hle
  · -- on a finer scale six digits are not enough
    have hpow : (10 : ℚ) ^ exponent' * 10 ≤ 10 ^ exponent := by
      rw [← zpow_add_one₀ (by norm_num)]
      exact zpow_le_zpow_right₀ (by norm_num) (by omega)
    have hdigits : (digits : ℚ) < 10 ^ 6 := by exact_mod_cast (abs_lt.mp hbound).2
    have hpos' : (0 : ℚ) < 10 ^ exponent' := zpow_pos (by norm_num) _
    have hfirst := mul_lt_mul_of_pos_right hdigits hpos'
    have hsecond := mul_le_mul_of_nonneg_right hn' hpos.le
    norm_num at hfirst hsecond
    linarith
  · -- on this scale there is no integer between two neighbours
    obtain ⟨k, hk⟩ := exists_int_of_le hle digits
    rw [hk] at hbelow habove
    have hbelow' : ((n : Int) : ℚ) < k := by
      rw [Int.cast_natCast]
      exact lt_of_mul_lt_mul_right hbelow hpos.le
    have habove' : (k : ℚ) < ((n + 1 : Int) : ℚ) := by
      rw [Int.cast_add, Int.cast_natCast, Int.cast_one]
      exact lt_of_mul_lt_mul_right habove hpos.le
    have hlow := Int.cast_lt.mp hbelow'
    have hhigh := Int.cast_lt.mp habove'
    omega

/-- A number that does not round past the greatest double. -/
def FitsDouble (value : ℚ) : Prop :=
  |value| < 2 ^ 1024 - 2 ^ 970

/-- Half of a small integer has six digits at most. -/
theorem sixDigits_of_half {k : Int} (h : |k| < 2 * 10 ^ 5) : SixDigits (k / 2) := by
  refine ⟨5 * k, -1, ?_, ?_⟩
  · rw [abs_mul, abs_of_pos (by decide)]
    omega
  · push_cast
    norm_num
    ring

/-- Half of a small integer is far from the greatest double. -/
theorem fitsDouble_of_half {k : Int} (h : |k| < 2 * 10 ^ 5) : FitsDouble (k / 2) := by
  have hk : |(k : ℚ)| < 2 * 10 ^ 5 := by exact_mod_cast h
  have hlow : (2 : ℚ) ^ 17 ≤ 2 ^ 970 := pow_le_pow_right₀ one_le_two (by decide)
  have hhigh : (2 : ℚ) ^ 971 ≤ 2 ^ 1024 := pow_le_pow_right₀ one_le_two (by decide)
  rw [FitsDouble, abs_div, abs_two]
  rw [pow_succ] at hhigh
  generalize (2 : ℚ) ^ 970 = least at hlow hhigh ⊢
  generalize (2 : ℚ) ^ 1024 = greatest at hhigh ⊢
  norm_num at hlow hk
  linarith

/-! ### Rounding to six digits -/

namespace Binary64

/-- Six digits that are chosen for a ratio: a number up to a million, on the scale on which the
ratio is below a million, but not below a tenth of it. -/
theorem exists_roundedDigits {num den : Nat} (hnum : 0 < num) (hden : 0 < den) :
    ∃ (n : Nat) (scale : Int), roundedDigits 6 num den = .ofScaled n scale ∧
      10 ^ 5 ≤ (num : ℚ) / den * 10 ^ scale ∧ (num : ℚ) / den * 10 ^ scale < 10 ^ 6 ∧
      |(n : ℚ) - num / den * 10 ^ scale| ≤ 1 / 2 ∧
      ∀ k : Nat, |(num : ℚ) / den * 10 ^ scale - k| < 1 / 2 → n = k := by
  obtain ⟨hlow, hhigh⟩ := isFloorLog_floorLog10 hnum hden
  rw [roundedDigits, if_neg hnum.ne']
  dsimp only
  generalize floorLog10 num den = log at hlow hhigh ⊢
  rw [show ((6 : Nat) : Int) - 1 - log = 5 - log from rfl]
  have hratio := scaleRatio_value (show 0 < 10 by decide) (5 - log) num den
  have hscaled := scaleRatio_snd_pos (show 0 < 10 by decide) (5 - log) num hden
  generalize scaleRatio 10 (5 - log) num den = ratio at hratio hscaled ⊢
  obtain ⟨num', den'⟩ := ratio
  rw [Nat.cast_ofNat] at hratio hlow hhigh
  have hpos : (0 : ℚ) < 10 ^ (5 - log) := zpow_pos (by norm_num) _
  have hpow (n : Int) : (10 : ℚ) ^ n * 10 ^ (5 - log) = 10 ^ (n + (5 - log)) :=
    (zpow_add₀ (by norm_num) _ _).symm
  have hlow' := mul_le_mul_of_nonneg_right hlow hpos.le
  have hhigh' := mul_lt_mul_of_pos_right hhigh hpos
  rw [hpow, show log + (5 - log) = 5 by omega] at hlow'
  rw [hpow, show log + 1 + (5 - log) = 6 by omega] at hhigh'
  have hhalf := abs_halfEven_sub_le num' hscaled
  rw [hratio] at hhalf
  refine ⟨halfEven num' den', 5 - log, rfl, ?_, ?_, hhalf, fun k hk => ?_⟩
  · exact_mod_cast hlow'
  · exact_mod_cast hhigh'
  · rw [← hratio] at hk
    exact halfEven_eq_of_abs_sub_lt hscaled hk

section

variable {ratio value : ℚ} (hclose : |ratio - value| * 2 ^ 50 ≤ |value|)

include hclose

/-- What is close to something positive is positive. -/
theorem pos_of_close (hratio : 0 < ratio) : 0 < value := by
  by_contra hneg
  rw [abs_of_nonpos (not_lt.mp hneg), abs_of_pos (by linarith)] at hclose
  norm_num at hclose
  linarith

/-- On a scale on which a ratio has six digits, a value with six digits that is close to it is an
integer. -/
theorem neg_scale_le_of_close (hpos : 0 < value) {digits exponent scale : Int}
    (hbound : |digits| < 10 ^ 6) (hdigits : value = digits * 10 ^ exponent)
    (hlow : 10 ^ 5 ≤ ratio * 10 ^ scale) : -scale ≤ exponent := by
  have hunit : (0 : ℚ) < 10 ^ exponent := zpow_pos (by norm_num) _
  have hscale : (0 : ℚ) < 10 ^ scale := zpow_pos (by norm_num) _
  have hle : (digits : ℚ) ≤ 10 ^ 6 - 1 := by
    exact_mod_cast Int.le_sub_one_of_lt (abs_lt.mp hbound).2
  have hvalue := mul_le_mul_of_nonneg_right hle hunit.le
  have hdiff := mul_le_mul_of_nonneg_right (le_abs_self (ratio - value))
    (show (0 : ℚ) ≤ 2 ^ 50 by norm_num)
  have hratio : ratio < 10 ^ 6 * 10 ^ exponent := by
    rw [← hdigits] at hvalue
    rw [abs_of_pos hpos] at hclose
    norm_num at hvalue hdiff hclose ⊢
    linarith
  have hscaled := mul_lt_mul_of_pos_right hratio hscale
  rw [mul_assoc, ← zpow_add₀ (by norm_num)] at hscaled
  have htenth : (10 : ℚ) ^ (-1 : Int) < 10 ^ (exponent + scale) := by
    norm_num at hlow hscaled ⊢
    linarith
  have hlt := (zpow_lt_zpow_iff_right₀ (by norm_num)).mp htenth
  omega

/-- On the scale of six digits, two close values are less than one half apart. -/
theorem abs_scaled_sub_lt (hpos : 0 < value) {scale : Int} (hhigh : ratio * 10 ^ scale < 10 ^ 6) :
    |ratio * 10 ^ scale - value * 10 ^ scale| < 1 / 2 := by
  have hscale : (0 : ℚ) < 10 ^ scale := zpow_pos (by norm_num) _
  rw [abs_of_pos hpos] at hclose
  have hscaled := mul_le_mul_of_nonneg_right hclose hscale.le
  rw [mul_right_comm, ← abs_of_pos hscale, ← abs_mul, sub_mul, abs_of_pos hscale] at hscaled
  have hbelow := (abs_le.mp (le_refl |ratio * 10 ^ scale - value * 10 ^ scale|)).1
  norm_num at hscaled hhigh
  linarith

end

/-- Rounding to six digits does not lead far away from a value that was close. -/
theorem abs_rounded_sub_le {digits scale value : ℚ} {ratio : ℚ} (hscale : 0 < scale)
    (hlow : 10 ^ 5 ≤ ratio * scale) (hhalf : |digits - ratio * scale| ≤ 1 / 2)
    (hpos : 0 < value) (hclose : |ratio - value| * 2 ^ 50 ≤ |value|) :
    |digits * scale⁻¹ - value| * 10 ^ 5 ≤ |value| := by
  have hunit : 0 < scale⁻¹ := inv_pos.mpr hscale
  have hratio : 10 ^ 5 * scale⁻¹ ≤ ratio := by
    rw [← div_eq_mul_inv, div_le_iff₀ hscale]
    exact hlow
  have hrounded : |digits * scale⁻¹ - ratio| ≤ 1 / 2 * scale⁻¹ := by
    have hsplit : digits * scale⁻¹ - ratio = (digits - ratio * scale) * scale⁻¹ := by
      rw [sub_mul, mul_assoc, mul_inv_cancel₀ hscale.ne', mul_one]
    rw [hsplit, abs_mul, abs_of_pos hunit]
    exact mul_le_mul_of_nonneg_right hhalf hunit.le
  have htriangle := abs_sub_le (digits * scale⁻¹) ratio value
  have habove := le_abs_self (ratio - value)
  rw [abs_of_pos hpos] at hclose ⊢
  generalize |digits * scale⁻¹ - value| = total at htriangle ⊢
  generalize |digits * scale⁻¹ - ratio| = first at htriangle hrounded
  generalize |ratio - value| = second at htriangle hclose habove
  generalize scale⁻¹ = unit at hunit hratio hrounded
  norm_num at hclose hratio ⊢
  linarith

/-- Rounding a ratio to six digits gives a value close to it iff that has six digits, and another
one close to it if not. -/
theorem value_roundedDigits_eq_iff {num den : Nat} (hnum : 0 < num) (hden : 0 < den) {value : ℚ}
    (hclose : |(num : ℚ) / den - value| * 2 ^ 50 ≤ |value|) :
    (roundedDigits 6 num den).Proper ∧
      ((roundedDigits 6 num den).value = value ↔ SixDigits value) ∧
      |(roundedDigits 6 num den).value - value| * 10 ^ 5 ≤ |value| := by
  obtain ⟨n, scale, heq, hlow, hhigh, hhalf, hexact⟩ := exists_roundedDigits hnum hden
  have hratio : (0 : ℚ) < num / den := by positivity
  generalize (num : ℚ) / den = ratio at hclose hlow hhigh hhalf hexact hratio
  have hpos := pos_of_close hclose hratio
  have hscale : (0 : ℚ) < 10 ^ scale := zpow_pos (by norm_num) _
  have hrounded := abs_rounded_sub_le hscale hlow hhalf hpos hclose
  rw [← zpow_neg] at hrounded
  rw [abs_le] at hhalf
  have hn : 0 < n := by
    have hcast : (0 : ℚ) < n := by linarith
    exact_mod_cast hcast
  obtain ⟨hproper, hvalue⟩ := ScientificDigits.ofScaled_spec hn scale
  rw [heq, hvalue]
  refine ⟨hproper, ⟨fun h => ?_, ?_⟩, hrounded⟩
  · -- what is written has six digits
    have hle : n ≤ 10 ^ 6 := by
      have hbound : (n : ℚ) < (10 ^ 6 + 1 : Nat) := by
        push_cast
        linarith
      exact Nat.lt_succ_iff.mp (Nat.cast_lt.mp hbound)
    rw [← h]
    exact sixDigits_of_le hle (-scale)
  · -- the value is an integer on the scale of the ratio, and the nearest one
    rintro ⟨digits, exponent, hbound, hdigits⟩
    have hle := neg_scale_le_of_close hclose hpos hbound hdigits hlow
    obtain ⟨k, hk⟩ := exists_int_of_le hle digits
    rw [← hdigits] at hk
    have hscaled : value * 10 ^ scale = k := by
      rw [hk, mul_assoc, ← zpow_add₀ (by norm_num), neg_add_cancel, zpow_zero, mul_one]
    have hkPos : 0 < k := by
      have hcast : (0 : ℚ) < k := hscaled ▸ mul_pos hpos hscale
      exact_mod_cast hcast
    obtain ⟨count, rfl⟩ := Int.eq_ofNat_of_zero_le hkPos.le
    rw [Int.cast_natCast] at hk hscaled
    have hnearest := abs_scaled_sub_lt hclose hpos hhigh
    rw [hscaled] at hnearest
    rw [hexact count hnearest, hk]

/-! ### The text of a double -/

theorem signed_eq_iff {negative : Bool} {a b : ℚ} :
    signed negative a = b ↔ a = signed negative b := by
  unfold signed
  split_ifs
  · exact neg_eq_iff_eq_neg
  · rfl

theorem signed_signed (negative : Bool) (a : ℚ) : signed negative (signed negative a) = a :=
  signed_eq_iff.mpr rfl

/-- The sign can be taken off one of two values instead of being put on the other. -/
theorem abs_signed_sub (negative : Bool) (a b : ℚ) :
    |signed negative a - b| = |a - signed negative b| := by
  rw [← abs_signed negative (a - signed negative b), ← signed_sub_signed, signed_signed]

/-- A sign in front makes no difference to the number of digits. -/
theorem sixDigits_signed_iff {negative : Bool} {value : ℚ} :
    SixDigits (signed negative value) ↔ SixDigits value := by
  unfold signed
  split_ifs
  · exact sixDigits_neg_iff
  · rfl

/-- A value that a double approximates is read back from the text of the double iff it has six
digits, and a value close to it if not. -/
theorem readDecimal?_brief {x : Binary64} {value : ℚ} (h : x.Approximates 50 value) :
    ∃ w, readDecimal? x.brief = some w ∧ (w = value ↔ SixDigits value) ∧
      |w - value| * 10 ^ 5 ≤ |value| := by
  obtain ⟨v, hv, hclose⟩ := h
  cases x with
  | finite negative significand exponent =>
    rw [value?_finite, Option.some.injEq] at hv
    subst hv
    have hratio := scaleRatio_value two_pos exponent significand 1
    have hden := scaleRatio_snd_pos two_pos exponent significand one_pos
    rw [Nat.cast_one, div_one, Nat.cast_ofNat] at hratio
    rw [brief, textWith]
    generalize scaleRatio 2 exponent significand 1 = ratio at hratio hden ⊢
    obtain ⟨num, den⟩ := ratio
    rw [← hratio] at hclose
    have hclose' :
        |(num : ℚ) / den - signed negative value| * 2 ^ 50 ≤ |signed negative value| := by
      rwa [← abs_signed_sub, abs_signed]
    rcases Nat.eq_zero_or_pos num with rfl | hnum
    · -- nothing but zero is close to zero
      rw [Nat.cast_zero, zero_div, zero_sub, abs_neg] at hclose'
      have hzero : signed negative value = 0 := by
        rw [← abs_eq_zero]
        have hnonneg := abs_nonneg (signed negative value)
        norm_num at hclose'
        linarith
      refine ⟨_, DecimalStyle.readDecimal?_write rfl ScientificDigits.proper_zero negative, ?_⟩
      rw [signed_eq_iff, ← sixDigits_signed_iff, abs_signed_sub, ← abs_signed negative value, hzero,
        ScientificDigits.value_zero, sub_zero, abs_zero, zero_mul]
      exact ⟨iff_of_true rfl sixDigits_zero, le_rfl⟩
    · obtain ⟨hproper, hiff, hrounded⟩ := value_roundedDigits_eq_iff hnum hden hclose'
      refine ⟨_, DecimalStyle.readDecimal?_write rfl hproper negative, ?_⟩
      rw [signed_eq_iff, hiff, sixDigits_signed_iff, abs_signed_sub, ← abs_signed negative value]
      exact ⟨Iff.rfl, hrounded⟩
  | _ => cases hv

/-- The text of an infinity is read as no value. -/
theorem readDecimal?_brief_infinity (negative : Bool) :
    readDecimal? (infinity negative).brief = none := by
  cases negative <;> decide +kernel

/-! ### Close to the greatest double -/

/-- The six leading digits of the greatest double stay below it by more than doubles are off. -/
theorem lt_greatest : (179769 : ℚ) * 10 ^ 303 * (2 ^ 53 + 1) < (2 ^ 1024 - 2 ^ 970) * 2 ^ 53 := by
  have h : 179769 * 10 ^ 303 * (2 ^ 53 + 1) + 2 ^ 970 * 2 ^ 53 < 2 ^ 1024 * 2 ^ 53 := by
    decide +kernel
  have hcast : ((179769 * 10 ^ 303 * (2 ^ 53 + 1) + 2 ^ 970 * 2 ^ 53 : Nat) : ℚ) <
      ((2 ^ 1024 * 2 ^ 53 : Nat) : ℚ) := Nat.cast_lt.mpr h
  rw [sub_mul, lt_sub_iff_add_lt]
  simpa only [Nat.cast_add, Nat.cast_mul, Nat.cast_pow, Nat.cast_ofNat, Nat.cast_one] using hcast

/-- One more in the last of six digits is greater than all doubles. -/
theorem greatest_le : (2 : ℚ) ^ 1024 ≤ (179769 + 1) * 10 ^ 303 := by
  have h : 2 ^ 1024 ≤ (179769 + 1) * 10 ^ 303 := by decide +kernel
  have hcast : ((2 ^ 1024 : Nat) : ℚ) ≤ (((179769 + 1) * 10 ^ 303 : Nat) : ℚ) := Nat.cast_le.mpr h
  simpa only [Nat.cast_add, Nat.cast_mul, Nat.cast_pow, Nat.cast_ofNat, Nat.cast_one] using hcast

/-- No value as great as the greatest double has six digits, unless it is greater than all
doubles. -/
theorem not_sixDigits_of_greatest {value : ℚ}
    (hlow : ((2 : ℚ) ^ 1024 - 2 ^ 970) * 2 ^ 53 ≤ value * (2 ^ 53 + 1)) (hhigh : value < 2 ^ 1024) :
    ¬ SixDigits value := by
  have hbelow := lt_of_mul_lt_mul_right (lt_greatest.trans_le hlow) (by positivity)
  have habove := hhigh.trans_le greatest_le
  have hbelow' : ((179769 : Nat) : ℚ) * 10 ^ (303 : Int) < value := by exact_mod_cast hbelow
  have habove' : value < ((179769 : Nat) + 1 : ℚ) * 10 ^ (303 : Int) := by exact_mod_cast habove
  exact not_sixDigits_of_between (by decide) hbelow' habove'

end Binary64

namespace Number

/-! ### The text of a number -/

/-- A text is read as a value iff the value has six digits, and as one that is off by a small part
of it, if at all, in any case. -/
structure IsBriefText (value : ℚ) (text : String) : Prop where
  exact_iff : readDecimal? text = some value ↔ SixDigits value
  close : ∀ w, readDecimal? text = some w → |w - value| * 10 ^ 5 ≤ |value|

/-- The text of a double that approximates a value is brief for that value. -/
theorem isBriefText_of_approximates {x : Binary64} {value : ℚ} (h : x.Approximates 50 value) :
    IsBriefText value x.brief := by
  obtain ⟨w, hw, hiff, hclose⟩ := Binary64.readDecimal?_brief h
  refine ⟨by rw [hw, Option.some.injEq, hiff], fun w' hw' => ?_⟩
  rw [hw] at hw'
  exact Option.some.inj hw' ▸ hclose

/-- The double for an integer approximates it, if there is one. -/
theorem approximates_of_toBinary64 {n : Int} {x : Binary64} (h : (int n).toBinary64 = .ok x) :
    x.Approximates 53 n ∧ |(n : ℚ)| < 2 ^ 1024 := by
  unfold toBinary64 binary64OfInt at h
  dsimp only at h
  split_ifs at h with hinfinite
  obtain rfl := Except.ok.inj h
  have hspec := Binary64.ofRatio_int_spec n one_pos (by decide)
  rw [Nat.cast_one, div_one] at hspec
  exact hspec.resolve_right fun h => hinfinite h.1

/-- The double for half of an integer approximates that half. -/
theorem approximates_of_halfOfInt {n : Int} {x : Binary64} (h : halfOfInt n = .ok x) :
    x.Approximates 53 (n / 2) := by
  unfold halfOfInt at h
  dsimp only at h
  split_ifs at h with hinfinite
  obtain rfl := Except.ok.inj h
  have hspec := Binary64.ofRatio_int_spec n two_pos (by decide)
  rw [Nat.cast_ofNat] at hspec
  exact (hspec.resolve_right fun h => hinfinite h.1).1

/-- An integer is rounded to a double unless it is past the greatest one. -/
theorem exists_toBinary64 {n : Int} (h : FitsDouble n) :
    ∃ x, (int n).toBinary64 = .ok x := by
  have hspec := Binary64.ofRatio_int_spec n one_pos (by decide)
  rw [Nat.cast_one, div_one] at hspec
  have hfinite := (hspec.resolve_right fun hgreat => hgreat.2.not_gt h).1.isInfinite_eq_false
  exact ⟨_, if_neg (Bool.eq_false_iff.mp hfinite)⟩

/-- An integer that fits a double has a half. -/
theorem exists_halfOfInt {n : Int} (h : FitsDouble n) :
    ∃ x, halfOfInt n = .ok x := by
  have hhalf : |(n : ℚ) / 2| ≤ |(n : ℚ)| := by
    rw [abs_div, abs_two]
    exact half_le_self (abs_nonneg _)
  have hspec := Binary64.ofRatio_int_spec n two_pos (by decide)
  rw [Nat.cast_ofNat] at hspec
  have hfinite := (hspec.resolve_right fun hgreat =>
    hgreat.2.not_gt (hhalf.trans_lt h)).1.isInfinite_eq_false
  exact ⟨_, if_neg (Bool.eq_false_iff.mp hfinite)⟩

/-- An integer is read back from its text as a double, and it is not past all doubles. -/
theorem isBriefText_int {n : Int} {text : String} (h : (int n).brief = .ok text) :
    IsBriefText n text ∧ |(n : ℚ)| < 2 ^ 1024 := by
  obtain ⟨x, hx, rfl⟩ := map_eq_ok_iff.mp h
  obtain ⟨happroximates, hbound⟩ := approximates_of_toBinary64 hx
  exact ⟨isBriefText_of_approximates (happroximates.mono (by decide)), hbound⟩

section

variable {p q a b : ℚ} (hp : 0 ≤ p) (hq : 0 ≤ q) (ha : |a - p| * 2 ^ 53 ≤ |p|)
  (hb : |b - q| * 2 ^ 53 ≤ |q|)

include hp ha

/-- A value that is close to one that is not negative lies between two bounds. -/
theorem bounds_of_close : p * (2 ^ 53 - 1) ≤ a * 2 ^ 53 ∧ a * 2 ^ 53 ≤ p * (2 ^ 53 + 1) := by
  obtain ⟨hbelow, habove⟩ := abs_le.mp (le_refl |a - p|)
  rw [abs_of_nonneg hp] at ha
  generalize |a - p| = error at ha hbelow habove
  constructor
  · linarith
  · linarith

include hq hb

/-- A value that is close to a sum of values that are close to two others is close to their sum. -/
theorem abs_sub_sum_le {v : ℚ} (hv : |v - (a + b)| * 2 ^ 53 ≤ |a + b|) :
    |v - (p + q)| * 2 ^ 50 ≤ |p + q| := by
  obtain ⟨haBelow, haAbove⟩ := bounds_of_close hp ha
  obtain ⟨hbBelow, hbAbove⟩ := bounds_of_close hq hb
  have hsum : |a + b - (p + q)| * 2 ^ 53 ≤ p + q := by
    rw [← abs_of_pos (show (0 : ℚ) < 2 ^ 53 by positivity), ← abs_mul, abs_le]
    constructor
    · linarith
    · linarith
  have htriangle := abs_sub_le v (a + b) (p + q)
  rw [abs_of_nonneg (show 0 ≤ a + b by linarith)] at hv
  rw [abs_of_nonneg (add_nonneg hp hq)]
  generalize |v - (a + b)| = first at htriangle hv
  generalize |a + b - (p + q)| = second at htriangle hsum
  linarith

end

/-- The middle of a stretch of track that starts and ends at integers is read back from its text as
a double. -/
theorem isBriefText_middle {start length : Int} {half : Binary64} {middle : Number}
    {text : String} (hstart : 0 ≤ start) (hlength : 0 ≤ length)
    (hbound : ((start + length : Int) : ℚ) < 2 ^ 1024) (hhalf : halfOfInt length = .ok half)
    (hmiddle : (int start).add (.real half) = .ok middle) (htext : middle.brief = .ok text) :
    IsBriefText (start + length / 2) text := by
  have hadd : (int start).add (.real half) =
      (int start).toBinary64 >>= fun x => .ok (.real (x.add half)) := rfl
  rw [hadd, bind_eq_ok_iff] at hmiddle
  obtain ⟨x, hx, hmiddle⟩ := hmiddle
  obtain rfl := Except.ok.inj hmiddle
  obtain rfl := Except.ok.inj htext
  obtain ⟨a, ha, haClose⟩ := (approximates_of_toBinary64 hx).1
  obtain ⟨b, hb, hbClose⟩ := approximates_of_halfOfInt hhalf
  have hstart' : (0 : ℚ) ≤ start := by exact_mod_cast hstart
  have hlength' : (0 : ℚ) ≤ length / 2 := div_nonneg (by exact_mod_cast hlength) two_pos.le
  obtain ⟨haBelow, haAbove⟩ := bounds_of_close hstart' haClose
  obtain ⟨hbBelow, hbAbove⟩ := bounds_of_close hlength' hbClose
  -- what is not nothing is half a pixel at least
  have hsum : a + b = 0 ∨ 1 / 4 ≤ a + b := by
    rcases (add_nonneg hstart hlength).eq_or_lt with hzero | hpos
    · left
      obtain rfl : start = 0 := by omega
      obtain rfl : length = 0 := by omega
      rw [Int.cast_zero] at haBelow haAbove hbBelow hbAbove
      exact le_antisymm (by linarith) (by linarith)
    · right
      have hone : (1 : ℚ) ≤ start + length := by exact_mod_cast hpos
      linarith
  rcases Binary64.add_spec ha hb hsum with happrox | ⟨heq, hgreat⟩
  · obtain ⟨v, hv, hvClose⟩ := happrox
    exact isBriefText_of_approximates
      ⟨v, hv, abs_sub_sum_le hstart' hlength' haClose hbClose hvClose⟩
  · -- the sum rounds past the greatest double, so that nothing is read
    have hnone := Binary64.readDecimal?_brief_infinity false
    have hlow : ((2 : ℚ) ^ 1024 - 2 ^ 970) * 2 ^ 53 ≤ (start + length / 2) * (2 ^ 53 + 1) := by
      refine (mul_le_mul_of_nonneg_right hgreat (by positivity)).trans ?_
      linarith
    have hhigh : (start : ℚ) + length / 2 < 2 ^ 1024 := by
      refine lt_of_le_of_lt ?_ hbound
      push_cast
      linarith
    rw [heq]
    refine ⟨?_, fun w hw => ?_⟩
    · rw [hnone]
      exact iff_of_false nofun (Binary64.not_sixDigits_of_greatest hlow hhigh)
    · rw [hnone] at hw
      cases hw

end Number

end SyntaxDiagram
