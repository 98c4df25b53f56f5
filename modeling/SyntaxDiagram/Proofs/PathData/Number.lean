import SyntaxDiagram.Proofs.Number.Decimal

/-!
# Numbers in path data

A number in path data is a sign, digits with an optional fraction and an exponent, and it goes on
for as long as it can (`PathData.ReadsNumber`).  A number has one value
(`PathData.IsNumber.unique`), so a text begins with at most one number
(`PathData.ReadsNumber.unique`).  The text of an integer is a number (`PathData.isNumber_toString`),
which ends in front of anything that no number goes on with (`PathData.IsNumber.reads`).
-/

namespace SyntaxDiagram

namespace PathData

open Binary64 (readDigits splitSign)

/-! ### Numbers -/

/-- A sign or none, and whether it makes a number negative. -/
inductive IsSign : List Char → Bool → Prop where
  | none : IsSign [] false
  | plus : IsSign ['+'] false
  | minus : IsSign ['-'] true

/-- Digits with an optional fraction, and their value. -/
inductive IsMantissa : List Char → ℚ → Prop where
  | whole {digits : List Char} (hne : digits ≠ []) (hdigits : AllDigits digits) :
    IsMantissa digits (readDigits digits)
  | fraction {whole fraction : List Char} (hwhole : AllDigits whole) (hne : fraction ≠ [])
    (hfraction : AllDigits fraction) :
    IsMantissa (whole ++ '.' :: fraction) (readDigits (whole ++ fraction) / 10 ^ fraction.length)

/-- A power of ten behind its mark, or none. -/
inductive IsExponent : List Char → Int → Prop where
  | none : IsExponent [] 0
  | some {mark : Char} {sign digits : List Char} {negative : Bool} (hmark : mark = 'e' ∨ mark = 'E')
    (hsign : IsSign sign negative) (hne : digits ≠ []) (hdigits : AllDigits digits) :
    IsExponent (mark :: (sign ++ digits))
      (if negative then -(readDigits digits : Int) else readDigits digits)

/-- The text of a number, and its value. -/
inductive IsNumber : List Char → ℚ → Prop where
  | parts {sign mantissa exponent : List Char} {negative : Bool} {value : ℚ} {power : Int}
    (hsign : IsSign sign negative) (hmantissa : IsMantissa mantissa value)
    (hexponent : IsExponent exponent power) :
    IsNumber (sign ++ (mantissa ++ exponent)) (signed negative (value * 10 ^ power))

/-! ### The parts of a number -/

/-- Whether a character can be in front of the exponent of a number, apart from the sign. -/
def isMantissaChar (c : Char) : Bool :=
  c.isDigit || c == '.'

/-- Whether a character can be in a number. -/
def isNumberChar (c : Char) : Bool :=
  isMantissaChar c || c == 'e' || c == 'E' || c == '+' || c == '-'

theorem isMantissaChar_of_isDigit {c : Char} (h : c.isDigit = true) : isMantissaChar c = true := by
  rw [isMantissaChar, h, Bool.true_or]

/-- What can be in a mantissa can be in a number. -/
theorem isNumberChar_of_isMantissaChar {c : Char} (h : isMantissaChar c = true) :
    isNumberChar c = true := by
  simp only [isNumberChar, h, Bool.true_or]

theorem isNumberChar_of_isDigit {c : Char} (h : c.isDigit = true) : isNumberChar c = true :=
  isNumberChar_of_isMantissaChar (isMantissaChar_of_isDigit h)

theorem point_notMem {digits : List Char} (h : AllDigits digits) : '.' ∉ digits :=
  fun hmem => absurd (h '.' hmem) (by decide)

/-- Signs are characters of numbers. -/
theorem IsSign.isNumberChar {sign : List Char} {negative : Bool} (h : IsSign sign negative) :
    ∀ c ∈ sign, isNumberChar c = true := by
  cases h with
  | none => exact List.forall_mem_nil _
  | plus => exact List.forall_mem_singleton.mpr rfl
  | minus => exact List.forall_mem_singleton.mpr rfl

/-- A mantissa is made of digits and a point. -/
theorem IsMantissa.isMantissaChar {mantissa : List Char} {value : ℚ}
    (h : IsMantissa mantissa value) : ∀ c ∈ mantissa, isMantissaChar c = true := by
  cases h with
  | whole _ hdigits => exact fun c hc => isMantissaChar_of_isDigit (hdigits c hc)
  | fraction hwhole _ hfraction =>
    rw [List.forall_mem_append, List.forall_mem_cons]
    exact ⟨fun c hc => isMantissaChar_of_isDigit (hwhole c hc), rfl,
      fun c hc => isMantissaChar_of_isDigit (hfraction c hc)⟩

theorem IsMantissa.ne_nil {mantissa : List Char} {value : ℚ} (h : IsMantissa mantissa value) :
    mantissa ≠ [] := by
  cases h with
  | whole hne _ => exact hne
  | fraction _ _ _ => exact List.append_ne_nil_of_right_ne_nil _ (List.cons_ne_nil _ _)

/-- Exponents are made of characters of numbers. -/
theorem IsExponent.isNumberChar {exponent : List Char} {power : Int}
    (h : IsExponent exponent power) : ∀ c ∈ exponent, isNumberChar c = true := by
  cases h with
  | none => exact List.forall_mem_nil _
  | some hmark hsign _ hdigits =>
    rw [List.forall_mem_cons, List.forall_mem_append]
    refine ⟨?_, hsign.isNumberChar, fun c hc => isNumberChar_of_isDigit (hdigits c hc)⟩
    rcases hmark with rfl | rfl
    · rfl
    · rfl

/-- No mantissa goes on into an exponent, so the two are told apart by its first character. -/
theorem IsExponent.head_eq_false {exponent : List Char} {power : Int}
    (h : IsExponent exponent power) : ∀ c ∈ exponent.head?, PathData.isMantissaChar c = false := by
  cases h with
  | none => exact fun _ hc => nomatch hc
  | some hmark _ _ _ =>
    intro c hc
    rw [← Option.some.inj hc]
    rcases hmark with rfl | rfl
    · rfl
    · rfl

/-- Numbers are made of their own characters. -/
theorem IsNumber.isNumberChar {text : List Char} {value : ℚ} (h : IsNumber text value) :
    ∀ c ∈ text, isNumberChar c = true := by
  obtain ⟨hsign, hmantissa, hexponent⟩ := h
  rw [List.forall_mem_append, List.forall_mem_append]
  exact ⟨hsign.isNumberChar,
    fun c hc => isNumberChar_of_isMantissaChar (hmantissa.isMantissaChar c hc),
    hexponent.isNumberChar⟩

/-- No number is empty. -/
theorem IsNumber.ne_nil {text : List Char} {value : ℚ} (h : IsNumber text value) : text ≠ [] := by
  obtain ⟨-, hmantissa, -⟩ := h
  exact List.append_ne_nil_of_right_ne_nil _ (List.append_ne_nil_of_left_ne_nil hmantissa.ne_nil _)

/-! ### Values -/

/-- A sign is split off in front of what is in a mantissa. -/
theorem IsSign.splitSign_append {sign rest : List Char} {negative : Bool}
    (hsign : IsSign sign negative) (hrest : ∀ c ∈ rest.head?, isMantissaChar c = true) :
    splitSign (sign ++ rest) = (negative, rest) := by
  cases hsign with
  | none =>
    rw [List.nil_append]
    unfold splitSign
    split
    · exact absurd (hrest '-' rfl) (by decide)
    · exact absurd (hrest '+' rfl) (by decide)
    · rfl
  | plus => rfl
  | minus => rfl

/-- A sign is told apart from the mantissa that follows it. -/
theorem IsSign.append_inj {sign sign' rest rest' : List Char} {negative negative' : Bool}
    (hsign : IsSign sign negative) (hsign' : IsSign sign' negative')
    (hrest : ∀ c ∈ rest.head?, isMantissaChar c = true)
    (hrest' : ∀ c ∈ rest'.head?, isMantissaChar c = true)
    (h : sign ++ rest = sign' ++ rest') : negative = negative' ∧ rest = rest' := by
  have hsplit := hsign.splitSign_append hrest
  rw [h, hsign'.splitSign_append hrest'] at hsplit
  exact Prod.mk.inj hsplit.symm

/-- A mantissa has one value. -/
theorem IsMantissa.unique {text text' : List Char} {value value' : ℚ} (h : IsMantissa text value)
    (h' : IsMantissa text' value') (htext : text = text') : value = value' := by
  cases h with
  | whole _ hdigits =>
    cases h' with
    | whole _ _ => rw [htext]
    | fraction _ _ _ =>
      refine absurd ?_ (point_notMem hdigits)
      rw [htext]
      exact List.mem_append_right _ (List.mem_cons_self ..)
  | fraction hwhole _ _ =>
    cases h' with
    | whole _ hdigits' =>
      refine absurd ?_ (point_notMem hdigits')
      rw [← htext]
      exact List.mem_append_right _ (List.mem_cons_self ..)
    | fraction hwhole' _ _ =>
      obtain ⟨rfl, rfl⟩ := append_mark_inj (point_notMem hwhole) (point_notMem hwhole') htext
      rfl

/-- An exponent has one value. -/
theorem IsExponent.unique {text text' : List Char} {power power' : Int} (h : IsExponent text power)
    (h' : IsExponent text' power') (htext : text = text') : power = power' := by
  have hhead {digits : List Char} (hdigits : AllDigits digits) :
      ∀ c ∈ digits.head?, PathData.isMantissaChar c = true :=
    fun c hc => isMantissaChar_of_isDigit (hdigits c (List.mem_of_mem_head? hc))
  cases h with
  | none =>
    cases h' with
    | none => rfl
    | some _ _ _ _ => exact absurd htext.symm (List.cons_ne_nil _ _)
  | some _ hsign _ hdigits =>
    cases h' with
    | none => exact absurd htext (List.cons_ne_nil _ _)
    | some _ hsign' _ hdigits' =>
      obtain ⟨rfl, rfl⟩ :=
        hsign.append_inj hsign' (hhead hdigits) (hhead hdigits') (List.cons.inj htext).2
      rfl

/-- A number has one value. -/
theorem IsNumber.unique {text text' : List Char} {value value' : ℚ} (h : IsNumber text value)
    (h' : IsNumber text' value') (htext : text = text') : value = value' := by
  obtain ⟨hsign, hmantissa, hexponent⟩ := h
  obtain ⟨hsign', hmantissa', hexponent'⟩ := h'
  have hhead {mantissa : List Char} {value : ℚ} (hmantissa : IsMantissa mantissa value)
      (rest : List Char) : ∀ c ∈ (mantissa ++ rest).head?, PathData.isMantissaChar c = true := by
    intro c hc
    rw [List.head?_append_of_ne_nil _ hmantissa.ne_nil] at hc
    exact hmantissa.isMantissaChar c (List.mem_of_mem_head? hc)
  obtain ⟨rfl, hparts⟩ :=
    hsign.append_inj hsign' (hhead hmantissa _) (hhead hmantissa' _) htext
  -- the mantissa goes on up to the mark of the exponent
  obtain ⟨htake, hdrop⟩ := span_append hmantissa.isMantissaChar hexponent.head_eq_false
  obtain ⟨htake', hdrop'⟩ := span_append hmantissa'.isMantissaChar hexponent'.head_eq_false
  rw [hparts] at htake hdrop
  rw [hmantissa.unique hmantissa' (htake.symm.trans htake'),
    hexponent.unique hexponent' (hdrop.symm.trans hdrop')]

/-! ### Reading a number -/

/-- A text begins with a number, which goes on for as long as it can. -/
def ReadsNumber (text : List Char) (value : ℚ) (rest : List Char) : Prop :=
  ∃ front, text = front ++ rest ∧ IsNumber front value ∧
    ∀ front' rest' value', text = front' ++ rest' → IsNumber front' value' →
      front'.length ≤ front.length

/-- A text begins with at most one number. -/
theorem ReadsNumber.unique {text rest rest' : List Char} {value value' : ℚ}
    (h : ReadsNumber text value rest) (h' : ReadsNumber text value' rest') :
    value = value' ∧ rest = rest' := by
  obtain ⟨front, htext, hnumber, hlongest⟩ := h
  obtain ⟨front', htext', hnumber', hlongest'⟩ := h'
  have hlength : front.length = front'.length :=
    le_antisymm (hlongest' _ _ _ htext hnumber) (hlongest _ _ _ htext' hnumber')
  obtain ⟨hfront, hrest⟩ := List.append_inj (htext.symm.trans htext') hlength
  exact ⟨hnumber.unique hnumber' hfront, hrest⟩

/-- What begins with a number begins with a character of one. -/
theorem ReadsNumber.exists_cons {text rest : List Char} {value : ℚ}
    (h : ReadsNumber text value rest) :
    ∃ c tail, text = c :: tail ∧ PathData.isNumberChar c = true := by
  obtain ⟨front, rfl, hnumber, -⟩ := h
  obtain ⟨c, tail, rfl⟩ := List.exists_cons_of_ne_nil hnumber.ne_nil
  exact ⟨c, tail ++ rest, rfl, hnumber.isNumberChar c (List.mem_cons_self ..)⟩

/-- No number goes on into a text. -/
def EndsNumber (rest : List Char) : Prop :=
  ∀ c ∈ rest.head?, isNumberChar c = false

theorem endsNumber_nil : EndsNumber [] :=
  fun _ hc => nomatch hc

/-- A number ends in front of a character that is in none. -/
theorem endsNumber_cons {c : Char} (hc : isNumberChar c = false) (rest : List Char) :
    EndsNumber (c :: rest) := by
  intro d hd
  rwa [← Option.some.inj hd]

/-- A number ends in front of what no number goes on with. -/
theorem IsNumber.reads {text rest : List Char} {value : ℚ} (h : IsNumber text value)
    (hrest : EndsNumber rest) : ReadsNumber (text ++ rest) value rest := by
  refine ⟨text, rfl, h, ?_⟩
  intro front' rest' value' htext hnumber'
  rcases List.append_eq_append_iff.mp htext with ⟨more, rfl, rfl⟩ | ⟨more, rfl, -⟩
  · cases more with
    | nil => exact (congrArg List.length (List.append_nil text)).le
    | cons c more =>
      have htrue := hnumber'.isNumberChar c (List.mem_append_right _ (List.mem_cons_self ..))
      exact absurd htrue (by rw [hrest c rfl]; exact Bool.false_ne_true)
  · rw [List.length_append]
    exact Nat.le_add_right _ _

/-- The decimal digits of a natural number are the text of a number, with a sign or without. -/
theorem isNumber_toDigits {sign : List Char} {negative : Bool} (hsign : IsSign sign negative)
    (n : Nat) : IsNumber (sign ++ Nat.toDigits 10 n) (signed negative n) := by
  have hparts := IsNumber.parts hsign
    (.whole (Nat.toDigits_ne_nil (b := 10) (n := n)) (allDigits_toDigits n)) .none
  rwa [readDigits_toDigits, zpow_zero, mul_one, List.append_nil] at hparts

/-- The text of an integer is a number. -/
theorem isNumber_toString (n : Int) : IsNumber (toString n).toList n := by
  cases n with
  | ofNat n =>
    have htext : (toString (Int.ofNat n)).toList = [] ++ Nat.toDigits 10 n := Nat.toList_repr
    rw [htext]
    exact isNumber_toDigits .none n
  | negSucc n =>
    have htext : (toString (Int.negSucc n)).toList = ['-'] ++ Nat.toDigits 10 (n + 1) := by
      rw [show toString (Int.negSucc n) = "-" ++ Nat.repr (n + 1) from rfl, String.toList_append,
        Nat.toList_repr]
      rfl
    have hvalue : ((Int.negSucc n : Int) : ℚ) = signed true (n + 1 : Nat) := by
      rw [Int.cast_negSucc]
      rfl
    rw [htext, hvalue]
    exact isNumber_toDigits .minus (n + 1)

end PathData

end SyntaxDiagram
