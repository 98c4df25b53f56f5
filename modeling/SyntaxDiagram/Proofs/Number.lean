import SyntaxDiagram.Number
import SyntaxDiagram.Proofs.Except

/-!
# Characters of numbers

Numbers are written with letters, digits, points and signs, and nothing else
(`isNumeral_of_mem_brief`, `isNumeral_of_mem_toString`), so that they need no escape.
-/

namespace SyntaxDiagram

/-- Whether a character may occur in the text of a number. -/
def isNumeral (c : Char) : Bool :=
  c.isAlphanum || c == '.' || c == '+' || c == '-'

theorem isNumeral_of_mem_toDigits {n : Nat} {c : Char} (h : c ∈ Nat.toDigits 10 n) :
    isNumeral c = true := by
  have hdigit := Nat.isDigit_of_mem_toDigits (by decide) (by decide) h
  simp only [isNumeral, Char.isAlphanum, hdigit, Bool.or_true, Bool.true_or]

theorem isNumeral_of_mem_replicate {n : Nat} {c : Char} (h : c ∈ List.replicate n '0') :
    isNumeral c = true := by
  rw [List.eq_of_mem_replicate h]
  decide

/-- The text of an integer is made of characters of numbers. -/
theorem isNumeral_of_mem_toString {n : Int} {c : Char} (h : c ∈ (toString n).toList) :
    isNumeral c = true := by
  cases n with
  | ofNat n =>
    have htext : (toString (Int.ofNat n)).toList = Nat.toDigits 10 n := Nat.toList_repr
    rw [htext] at h
    exact isNumeral_of_mem_toDigits h
  | negSucc n =>
    have htext : (toString (Int.negSucc n)).toList = '-' :: Nat.toDigits 10 (n + 1) := by
      rw [show toString (Int.negSucc n) = "-" ++ Nat.repr (n + 1) from rfl, String.toList_append,
        Nat.toList_repr]
      rfl
    rw [htext] at h
    rcases List.mem_cons.mp h with rfl | h
    · decide
    · exact isNumeral_of_mem_toDigits h

/-- A character that numbers do not have is in no integer's text. -/
theorem notMem_toString {c : Char} (hc : isNumeral c = false) (n : Int) :
    c ∉ (toString n).toList := by
  intro h
  rw [isNumeral_of_mem_toString h] at hc
  exact absurd hc (by decide)

theorem notMem_toList_append {c : Char} {a b : String} (ha : c ∉ a.toList) (hb : c ∉ b.toList) :
    c ∉ (a ++ b).toList := by
  rw [String.toList_append, List.mem_append]
  exact not_or.mpr ⟨ha, hb⟩

/-! ### Layout of digits -/

namespace DecimalStyle

/-- An exponent is made of characters of numbers. -/
theorem isNumeral_of_mem_exponentText {exponent : Int} {c : Char}
    (h : c ∈ exponentText exponent) : isNumeral c = true := by
  rw [exponentText, List.mem_cons, List.mem_append] at h
  rcases h with rfl | h | h
  · split <;> decide
  · exact isNumeral_of_mem_replicate h
  · exact isNumeral_of_mem_toDigits h

/-- A fraction is made of characters of numbers. -/
theorem isNumeral_of_mem_fractionText {keepsPoint : Bool} {digits : List Char}
    (hdigits : ∀ c ∈ digits, isNumeral c = true) {c : Char}
    (h : c ∈ fractionText keepsPoint digits) : isNumeral c = true := by
  cases digits with
  | nil =>
    cases keepsPoint with
    | false => exact absurd h List.not_mem_nil
    | true => exact List.all_eq_true.mp (by decide) c h
  | cons digit digits =>
    rcases List.mem_cons.mp h with rfl | h
    · decide
    · exact hdigits c h

/-- However digits are laid out, the text is made of characters of numbers. -/
theorem isNumeral_of_mem_writeChars {style : DecimalStyle} {number : ScientificDigits}
    (hdigits : ∀ c ∈ number.digits, isNumeral c = true) {c : Char}
    (h : c ∈ style.writeChars number) : isNumeral c = true := by
  have htake (n : Nat) : ∀ c ∈ number.digits.take n, isNumeral c = true :=
    fun c hc => hdigits c (List.mem_of_mem_take hc)
  have hdrop (n : Nat) : ∀ c ∈ number.digits.drop n, isNumeral c = true :=
    fun c hc => hdigits c (List.mem_of_mem_drop hc)
  unfold writeChars at h
  dsimp only at h
  split_ifs at h
  · -- below one
    rw [List.mem_cons, List.mem_cons, List.mem_append] at h
    rcases h with rfl | rfl | h | h
    · decide
    · decide
    · exact isNumeral_of_mem_replicate h
    · exact hdigits c h
  · -- positional
    rw [List.mem_append, List.mem_append] at h
    rcases h with (h | h) | h
    · exact htake _ c h
    · exact isNumeral_of_mem_replicate h
    · exact isNumeral_of_mem_fractionText (hdrop _) h
  · -- with an exponent
    rw [List.mem_append, List.mem_append, List.mem_cons] at h
    rcases h with (h | h) | rfl | h
    · exact htake _ c h
    · exact isNumeral_of_mem_fractionText (hdrop _) h
    · decide
    · exact isNumeral_of_mem_exponentText h

/-- With a sign the text is still made of characters of numbers. -/
theorem isNumeral_of_mem_write {style : DecimalStyle} {negative : Bool} {number : ScientificDigits}
    (hdigits : ∀ c ∈ number.digits, isNumeral c = true) {c : Char}
    (h : c ∈ (style.write negative number).toList) : isNumeral c = true := by
  rw [write, String.toList_ofList] at h
  cases negative with
  | false => exact isNumeral_of_mem_writeChars hdigits h
  | true =>
    rcases List.mem_cons.mp h with rfl | h
    · decide
    · exact isNumeral_of_mem_writeChars hdigits h

end DecimalStyle

/-! ### Doubles -/

theorem ScientificDigits.isNumeral_of_mem_ofScaled {n : Nat} {scale : Int} {c : Char}
    (h : c ∈ (ofScaled n scale).digits) : isNumeral c = true := by
  rw [ofScaled, List.mem_reverse] at h
  have hmem := (List.dropWhile_sublist _).subset h
  exact isNumeral_of_mem_toDigits (List.mem_reverse.mp hmem)

namespace Binary64

theorem isNumeral_of_mem_roundedDigits {count num den : Nat} {c : Char}
    (h : c ∈ (roundedDigits count num den).digits) : isNumeral c = true := by
  unfold roundedDigits at h
  split_ifs at h
  · rw [List.mem_singleton.mp h]
    decide
  · exact ScientificDigits.isNumeral_of_mem_ofScaled h

/-- The text of a double is made of characters of numbers, infinities and all. -/
theorem isNumeral_of_mem_brief {x : Binary64} {c : Char} (h : c ∈ x.brief.toList) :
    isNumeral c = true := by
  cases x with
  | nan => exact List.all_eq_true.mp (by decide) c h
  | infinity negative => cases negative <;> exact List.all_eq_true.mp (by decide) c h
  | finite negative significand exponent =>
    exact DecimalStyle.isNumeral_of_mem_write (fun c => isNumeral_of_mem_roundedDigits) h

end Binary64

/-- A number that can be written is written in characters of numbers. -/
theorem Number.isNumeral_of_mem_brief {number : Number} {text : String}
    (h : number.brief = .ok text) {c : Char} (hc : c ∈ text.toList) : isNumeral c = true := by
  obtain ⟨x, -, rfl⟩ := map_eq_ok_iff.mp h
  exact Binary64.isNumeral_of_mem_brief hc

end SyntaxDiagram
