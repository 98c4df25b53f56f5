import SyntaxDiagram.Proofs.Number.Rounding
import SyntaxDiagram.Proofs.Text.Parts

/-!
# Decimal texts read back

`readDecimal?` reads a decimal text exactly, as a rational number.  Whatever way digits are laid
out, as a fraction below one, in positional notation or with an exponent, they are read back as the
number that they stand for (`DecimalStyle.readDecimal?_write`).  The digits of a natural number are
also its digits without the zeros at the end (`ScientificDigits.ofScaled_spec`).
-/

namespace SyntaxDiagram

open Binary64 (readDigits readExponent? splitSign)

/-! ### The reader -/

/-- The digits after a point, and the rest. -/
def splitFraction : List Char → List Char × List Char
  | '.' :: rest => (rest.takeWhile Char.isDigit, rest.dropWhile Char.isDigit)
  | rest => ([], rest)

/-- The value of an unsigned decimal text with an optional fraction and an optional exponent. -/
def readUnsignedDecimal? (chars : List Char) : Option ℚ :=
  let whole := chars.takeWhile Char.isDigit
  let (fraction, rest) := splitFraction (chars.dropWhile Char.isDigit)
  if whole.isEmpty && fraction.isEmpty then none
  else
    (readExponent? rest).map fun exponent : Int =>
      (readDigits (whole ++ fraction) : ℚ) * 10 ^ (exponent - fraction.length)

/-- The value of a decimal text. -/
def readDecimal? (text : String) : Option ℚ :=
  let (negative, chars) := splitSign text.toList
  (readUnsignedDecimal? chars).map (signed negative)

/-! ### Digits -/

/-- Some characters are digits. -/
def AllDigits (chars : List Char) : Prop :=
  ∀ c ∈ chars, c.isDigit = true

theorem AllDigits.append {a b : List Char} (ha : AllDigits a) (hb : AllDigits b) :
    AllDigits (a ++ b) :=
  List.forall_mem_append.mpr ⟨ha, hb⟩

theorem allDigits_replicate (n : Nat) : AllDigits (List.replicate n '0') := by
  intro c hc
  rw [List.eq_of_mem_replicate hc]
  rfl

theorem allDigits_toDigits (n : Nat) : AllDigits (Nat.toDigits 10 n) :=
  fun _ hc => Nat.isDigit_of_mem_toDigits (by decide) (by decide) hc

/-- Digits in front are scaled by the power of ten for those behind them. -/
theorem readDigits_append (a b : List Char) :
    readDigits (a ++ b) = 10 ^ b.length * readDigits a + readDigits b :=
  (Nat.ofDigitChars_append (b := 10) 0).trans Nat.ofDigitChars_eq_ofDigitChars_zero

theorem readDigits_replicate (n : Nat) : readDigits (List.replicate n '0') = 0 :=
  (Nat.ofDigitChars_replicate_zero (b := 10)).trans (Nat.mul_zero _)

/-- A natural number is read back from its decimal digits. -/
theorem readDigits_toDigits (n : Nat) : readDigits (Nat.toDigits 10 n) = n :=
  Nat.ofDigitChars_ten_toDigits

/-- Digits are read up to what is not one. -/
theorem span_digits {digits rest : List Char} (hdigits : AllDigits digits)
    (hrest : ∀ c ∈ rest.head?, c.isDigit = false) :
    (digits ++ rest).takeWhile Char.isDigit = digits ∧
      (digits ++ rest).dropWhile Char.isDigit = rest :=
  span_append hdigits hrest

/-! ### Signs and exponents -/

/-- An unsigned number does not start with a sign. -/
theorem splitSign_of_readUnsignedDecimal? {chars : List Char} {value : ℚ}
    (h : readUnsignedDecimal? chars = some value) : splitSign chars = (false, chars) := by
  unfold splitSign
  split
  · cases h
  · cases h
  · rfl

/-- An exponent begins with its mark, or is left out. -/
theorem head?_of_readExponent? {chars : List Char} {exponent : Int}
    (h : readExponent? chars = some exponent) : ∀ c ∈ chars.head?, c = 'e' := by
  intro c hc
  unfold readExponent? at h
  split at h
  · cases hc
  · exact (Option.some.inj hc).symm
  · cases h

/-- A written exponent is read back. -/
theorem readExponent?_exponentText (exponent : Int) :
    readExponent? ('e' :: DecimalStyle.exponentText exponent) = some exponent := by
  have hdigits : ∀ digits : List Char, AllDigits digits → digits ≠ [] →
      (digits.isEmpty || !digits.all Char.isDigit) = false := by
    intro digits hall hne
    rw [List.isEmpty_eq_false_iff.mpr hne, List.all_eq_true.mpr hall]
    rfl
  have hall := (allDigits_replicate (2 - (Nat.toDigits 10 exponent.natAbs).length)).append
    (allDigits_toDigits exponent.natAbs)
  have hvalue : readDigits (List.replicate (2 - (Nat.toDigits 10 exponent.natAbs).length) '0' ++
      Nat.toDigits 10 exponent.natAbs) = exponent.natAbs := by
    rw [readDigits_append, readDigits_replicate, readDigits_toDigits, Nat.mul_zero, Nat.zero_add]
  have hne : List.replicate (2 - (Nat.toDigits 10 exponent.natAbs).length) '0' ++
      Nat.toDigits 10 exponent.natAbs ≠ [] :=
    List.append_ne_nil_of_right_ne_nil _ Nat.toDigits_ne_nil
  unfold DecimalStyle.exponentText
  dsimp only
  generalize List.replicate (2 - (Nat.toDigits 10 exponent.natAbs).length) '0' ++
    Nat.toDigits 10 exponent.natAbs = digits at hall hvalue hne ⊢
  by_cases hneg : exponent < 0
  · rw [if_pos hneg, readExponent?, splitSign]
    dsimp only
    rw [hdigits digits hall hne, if_neg Bool.false_ne_true, if_pos rfl, hvalue]
    exact congrArg some (by omega)
  · rw [if_neg hneg, readExponent?, splitSign]
    dsimp only
    rw [hdigits digits hall hne, if_neg Bool.false_ne_true, if_neg Bool.false_ne_true, hvalue]
    exact congrArg some (by omega)

/-- A written fraction is split off in front of an exponent or the end. -/
theorem splitFraction_fractionText {fraction rest : List Char} (hfraction : AllDigits fraction)
    (hrest : ∀ c ∈ rest.head?, c = 'e') :
    splitFraction (DecimalStyle.fractionText false fraction ++ rest) = (fraction, rest) := by
  cases fraction with
  | nil =>
    rw [DecimalStyle.fractionText, if_neg Bool.false_ne_true, List.nil_append]
    unfold splitFraction
    split
    · exact absurd (hrest '.' rfl) (by decide)
    · rfl
  | cons digit digits =>
    have hhead : ∀ c ∈ rest.head?, c.isDigit = false := by
      intro c hc
      rw [hrest c hc]
      rfl
    obtain ⟨htake, hdrop⟩ := span_digits hfraction hhead
    show splitFraction ('.' :: (digit :: digits ++ rest)) = _
    rw [splitFraction, htake, hdrop]

/-- A number in parts: digits, a fraction after a point if there is any, and an exponent. -/
theorem readUnsignedDecimal?_parts {whole fraction rest : List Char} {exponent : Int}
    (hne : whole ≠ []) (hwhole : AllDigits whole) (hfraction : AllDigits fraction)
    (hrest : readExponent? rest = some exponent) :
    readUnsignedDecimal? (whole ++ (DecimalStyle.fractionText false fraction ++ rest)) =
      some ((readDigits (whole ++ fraction) : ℚ) * 10 ^ (exponent - fraction.length)) := by
  have hhead := head?_of_readExponent? hrest
  have hpoint : ∀ c ∈ (DecimalStyle.fractionText false fraction ++ rest).head?,
      c.isDigit = false := by
    intro c hc
    cases fraction with
    | nil =>
      rw [hhead c hc]
      rfl
    | cons digit digits =>
      rw [← Option.some.inj hc]
      rfl
  obtain ⟨htake, hdrop⟩ := span_digits hwhole hpoint
  rw [readUnsignedDecimal?, htake, hdrop, splitFraction_fractionText hfraction hhead]
  dsimp only
  rw [List.isEmpty_eq_false_iff.mpr hne, Bool.false_and, if_neg Bool.false_ne_true, hrest]
  rfl

/-! ### Laid out digits -/

namespace ScientificDigits

/-- The value of digits with an exponent. -/
def value (number : ScientificDigits) : ℚ :=
  readDigits number.digits * 10 ^ (number.exponent + 1 - number.digits.length)

/-- There is a digit, and nothing else than digits. -/
structure Proper (number : ScientificDigits) : Prop where
  nonempty : number.digits ≠ []
  allDigits : AllDigits number.digits

theorem proper_zero : zero.Proper :=
  ⟨by decide, by intro c hc; rw [List.mem_singleton.mp hc]; rfl⟩

theorem value_zero : zero.value = 0 := by
  have hdigits : readDigits zero.digits = 0 := rfl
  rw [value, hdigits, Nat.cast_zero, zero_mul]

/-- Digits without the zeros at their end. -/
theorem exists_eq_append_replicate (digits : List Char) :
    ∃ count, digits = (digits.reverse.dropWhile (· == '0')).reverse ++
      List.replicate count '0' := by
  have hzeros : digits.reverse.takeWhile (· == '0') =
      List.replicate (digits.reverse.takeWhile (· == '0')).length '0' :=
    List.eq_replicate_of_mem fun c hc =>
      beq_iff_eq.mp (List.all_eq_true.mp List.all_takeWhile c hc)
  have hreverse : digits.reverse = _ ++ digits.reverse.dropWhile (· == '0') :=
    (List.takeWhile_append_dropWhile).symm
  rw [hzeros] at hreverse
  have hdigits := congrArg List.reverse hreverse
  rw [List.reverse_reverse, List.reverse_append, List.reverse_replicate] at hdigits
  exact ⟨_, hdigits⟩

/-- A number and its digits, with the last one at a power of ten. -/
theorem ofScaled_spec {n : Nat} (hpos : 0 < n) (scale : Int) :
    (ofScaled n scale).Proper ∧ (ofScaled n scale).value = n * 10 ^ (-scale) := by
  obtain ⟨count, hcount⟩ := exists_eq_append_replicate (Nat.toDigits 10 n)
  have hall := allDigits_toDigits n
  have hvalue := readDigits_toDigits n
  have hlength := congrArg List.length hcount
  rw [ofScaled]
  generalize ((Nat.toDigits 10 n).reverse.dropWhile (· == '0')).reverse = digits
    at hcount hlength ⊢
  rw [hcount, readDigits_append, readDigits_replicate, Nat.add_zero,
    List.length_replicate] at hvalue
  rw [List.length_append, List.length_replicate] at hlength
  refine ⟨⟨?_, fun c hc => hall c ?_⟩, ?_⟩
  · rintro rfl
    have hnone : readDigits [] = 0 := rfl
    rw [hnone, Nat.mul_zero] at hvalue
    omega
  · rw [hcount]
    exact List.mem_append_left _ hc
  · rw [value, hlength, ← hvalue,
      show ((digits.length + count : Nat) : Int) - 1 - scale + 1 - digits.length =
      count + -scale by push_cast; ring, zpow_add₀ (by norm_num), zpow_natCast]
    push_cast
    ring

end ScientificDigits

namespace DecimalStyle

theorem fractionText_of_ne_nil {digits : List Char} (h : digits ≠ []) (keepsPoint : Bool) :
    fractionText keepsPoint digits = '.' :: digits := by
  cases digits with
  | nil => exact absurd rfl h
  | cons digit digits => rfl

theorem readExponent?_nil : readExponent? [] = some 0 := rfl

section

variable {number : ScientificDigits} (h : number.Proper)

include h

theorem allDigits_take (n : Nat) : AllDigits (number.digits.take n) :=
  fun c hc => h.allDigits c (List.mem_of_mem_take hc)

theorem allDigits_drop (n : Nat) : AllDigits (number.digits.drop n) :=
  fun c hc => h.allDigits c (List.mem_of_mem_drop hc)

/-- Some digits are left at the front, as there is at least one. -/
theorem take_ne_nil (n : Nat) : number.digits.take (n + 1) ≠ [] := by
  have hlength := List.length_pos_iff.mpr h.nonempty
  rw [← List.length_pos_iff, List.length_take]
  omega

/-- Digits below one, behind a point and zeros. -/
theorem readUnsignedDecimal?_below (hneg : number.exponent < 0) :
    readUnsignedDecimal? ('0' :: '.' ::
      (List.replicate ((-number.exponent).toNat - 1) '0' ++ number.digits)) =
        some number.value := by
  have hzeros : ((-number.exponent).toNat - 1 : Nat) = -number.exponent - 1 := by omega
  generalize (-number.exponent).toNat - 1 = count at hzeros ⊢
  have hfraction := (allDigits_replicate count).append h.allDigits
  have hne : List.replicate count '0' ++ number.digits ≠ [] :=
    List.append_ne_nil_of_right_ne_nil _ h.nonempty
  have hparts := readUnsignedDecimal?_parts (List.cons_ne_nil '0' []) (allDigits_replicate 1)
    hfraction readExponent?_nil
  have hzero : readDigits ['0'] = 0 := rfl
  rw [fractionText_of_ne_nil hne, readDigits_append, readDigits_append, readDigits_replicate,
    hzero, List.length_append, List.length_replicate, Nat.mul_zero, Nat.mul_zero, Nat.zero_add,
    Nat.zero_add, show (0 : Int) - (count + number.digits.length : Nat) =
      number.exponent + 1 - number.digits.length by omega, List.append_nil] at hparts
  exact hparts

/-- Digits with a point among them, or with zeros up to the point. -/
theorem readUnsignedDecimal?_positional {places : Nat} (hplaces : places = number.exponent + 1)
    (hpos : 0 < places) :
    readUnsignedDecimal? (number.digits.take places ++
      List.replicate (places - number.digits.length) '0' ++
        fractionText false (number.digits.drop places)) = some number.value := by
  obtain ⟨below, rfl⟩ := Nat.exists_eq_add_one.mpr hpos
  have hwhole := List.append_ne_nil_of_left_ne_nil (take_ne_nil h below)
    (List.replicate (below + 1 - number.digits.length) '0')
  have hparts := readUnsignedDecimal?_parts hwhole
    ((allDigits_take h _).append (allDigits_replicate _)) (allDigits_drop h (below + 1))
    readExponent?_nil
  rw [List.append_nil] at hparts
  rw [hparts, ScientificDigits.value]
  generalize below + 1 = places at hplaces ⊢
  rcases le_total number.digits.length places with hle | hle
  · -- all digits stand before the point, and zeros fill up the places
    obtain ⟨count, rfl⟩ := Nat.exists_eq_add_of_le hle
    rw [List.drop_eq_nil_of_le hle, List.take_of_length_le hle, List.append_nil,
      readDigits_append, readDigits_replicate, List.length_replicate, Nat.add_sub_cancel_left,
      Nat.add_zero, List.length_nil,
      show number.exponent + 1 - number.digits.length = count by omega,
      Nat.cast_mul, Nat.cast_pow, zpow_natCast]
    norm_num
    ring
  · -- the point stands among the digits, and no zero is needed
    rw [Nat.sub_eq_zero_of_le hle, List.replicate_zero, List.append_nil, List.take_append_drop,
      List.length_drop, show (0 : Int) - (number.digits.length - places : Nat) =
        number.exponent + 1 - number.digits.length by omega]

/-- One digit in front of the point, and an exponent. -/
theorem readUnsignedDecimal?_scientific :
    readUnsignedDecimal? (number.digits.take 1 ++ fractionText false (number.digits.drop 1) ++
      'e' :: exponentText number.exponent) = some number.value := by
  have hlength := List.length_pos_iff.mpr h.nonempty
  have hparts := readUnsignedDecimal?_parts (take_ne_nil h 0) (allDigits_take h 1)
    (allDigits_drop h 1) (readExponent?_exponentText number.exponent)
  rw [List.take_append_drop, List.length_drop,
    show number.exponent - (number.digits.length - 1 : Nat) =
      number.exponent + 1 - number.digits.length by omega] at hparts
  rw [List.append_assoc]
  exact hparts

/-- However digits are laid out, they are read back as their value. -/
theorem readUnsignedDecimal?_writeChars {style : DecimalStyle}
    (hstyle : style.keepsPoint = false) :
    readUnsignedDecimal? (style.writeChars number) = some number.value := by
  rw [writeChars]
  dsimp only
  rw [hstyle]
  split_ifs with hrange hneg
  · exact readUnsignedDecimal?_below h hneg
  · exact readUnsignedDecimal?_positional h (by omega) (Nat.succ_pos _)
  · exact readUnsignedDecimal?_scientific h

end

/-- The text of a number is read back as its value. -/
theorem readDecimal?_write {style : DecimalStyle} (hstyle : style.keepsPoint = false)
    {number : ScientificDigits} (h : number.Proper) (negative : Bool) :
    readDecimal? (style.write negative number) = some (signed negative number.value) := by
  have hchars := readUnsignedDecimal?_writeChars h hstyle
  have hsign : splitSign (style.write negative number).toList =
      (negative, style.writeChars number) := by
    rw [write, String.toList_ofList]
    cases negative with
    | true => rfl
    | false => exact splitSign_of_readUnsignedDecimal? hchars
  rw [readDecimal?, hsign]
  exact congrArg (Option.map (signed negative)) hchars

end DecimalStyle

end SyntaxDiagram
