import SyntaxDiagram.Text.Quoted
import Mathlib.Data.Nat.Digits.Defs

/-!
# Quoted texts read back

The characters of a quoted text are read back one by one, whatever follows
(`readQuotedChar?_quoteChar`): an escape by code point has as many digits as its letter says
(`length_hexDigits`), and the digits are read back as the code point
(`readHexDigits_hexDigits`).  No character starts with a bare quote, so that a quoted text ends
where it does whatever stands behind it, and it is the quoted form of no other text
(`quoted_append_inj`).
-/

namespace SyntaxDiagram

/-! ### Hexadecimal digits -/

/-- The value of a lower-case hexadecimal digit. -/
def hexDigitValue (c : Char) : Nat :=
  if c.isDigit then c.toNat - '0'.toNat else c.toNat - 'a'.toNat + 10

/-- The value of a run of lower-case hexadecimal digits. -/
def readHexDigits (digits : List Char) : Nat :=
  digits.foldl (fun value c => 16 * value + hexDigitValue c) 0

theorem hexDigitValue_digitChar : ∀ n < 16, hexDigitValue n.digitChar = n := by
  decide

/-- A number is read back from its hexadecimal digits. -/
theorem readHexDigits_toDigits (n : Nat) : readHexDigits (Nat.toDigits 16 n) = n := by
  induction n using Nat.strong_induction_on with
  | _ n ih =>
    have hlast := hexDigitValue_digitChar (n % 16) (Nat.mod_lt n (by decide))
    rw [Nat.toDigits_eq_if (by decide)]
    by_cases hn : n < 16
    · rw [if_pos hn, readHexDigits, List.foldl_cons, List.foldl_nil,
        hexDigitValue_digitChar n hn]
      omega
    · have hfront : readHexDigits (Nat.toDigits 16 (n / 16)) = n / 16 := ih (n / 16) (by omega)
      rw [readHexDigits] at hfront
      rw [if_neg hn, readHexDigits, List.foldl_append, List.foldl_cons, List.foldl_nil, hfront,
        hlast]
      omega

/-- Zeros in front of hexadecimal digits do not change the number. -/
theorem readHexDigits_hexDigits (width n : Nat) : readHexDigits (hexDigits width n) = n := by
  have hzeros (count : Nat) :
      (List.replicate count '0').foldl (fun value c => 16 * value + hexDigitValue c) 0 = 0 := by
    induction count with
    | zero => rfl
    | succ count ih => exact ih
  have hdigits := readHexDigits_toDigits n
  unfold readHexDigits at hdigits ⊢
  rw [hexDigits, List.foldl_append, hzeros, hdigits]

/-- A number is written in as many hexadecimal digits as are asked for, if they suffice. -/
theorem length_hexDigits {width n : Nat} (hwidth : 0 < width) (hn : n < 16 ^ width) :
    (hexDigits width n).length = width := by
  have hle := Nat.toDigits_length 16 n width hwidth hn
  rw [hexDigits, List.length_append, List.length_replicate]
  omega

/-! ### One character -/

/-- How many digits the escape of a code point has, by the letter that it starts with. -/
def escapeWidth? : Char → Option Nat
  | 'x' => some 2
  | 'u' => some 4
  | 'U' => some 8
  | _ => none

/-- The first character of a quoted text behind its opening quote, and the rest. -/
def readQuotedChar? : List Char → Option (Char × List Char)
  | '\\' :: 'n' :: rest => some ('\n', rest)
  | '\\' :: 'r' :: rest => some ('\r', rest)
  | '\\' :: 't' :: rest => some ('\t', rest)
  | '\\' :: letter :: rest =>
    match escapeWidth? letter with
    | some width => some (Char.ofNat (readHexDigits (rest.take width)), rest.drop width)
    | none => some (letter, rest)
  | c :: rest => some (c, rest)
  | [] => none

/-- The two quotes that a text may stand between. -/
def IsQuote (c : Char) : Prop :=
  c = '\'' ∨ c = '"'

/-- Either quote is chosen, and nothing else. -/
theorem isQuote_chooseQuote (chars : List Char) : IsQuote (chooseQuote chars) := by
  unfold chooseQuote
  split
  · exact Or.inr rfl
  · exact Or.inl rfl

theorem readQuotedChar?_bare {c : Char} (hc : c ≠ '\\') (rest : List Char) :
    readQuotedChar? (c :: rest) = some (c, rest) := by
  unfold readQuotedChar?
  split <;> simp_all

/-- Digits of the right number are read back as a character. -/
theorem readQuotedChar?_digits {c letter : Char} {width : Nat} (hwidth : 0 < width)
    (hletter : escapeWidth? letter = some width) (hc : c.toNat < 16 ^ width) (rest : List Char) :
    readQuotedChar? ('\\' :: letter :: (hexDigits width c.toNat ++ rest)) = some (c, rest) := by
  have hlength := length_hexDigits hwidth hc
  have htake : (hexDigits width c.toNat ++ rest).take width = hexDigits width c.toNat :=
    List.take_left' hlength
  have hdrop : (hexDigits width c.toNat ++ rest).drop width = rest := List.drop_left' hlength
  have hread : readQuotedChar? ('\\' :: letter :: (hexDigits width c.toNat ++ rest)) =
      some (Char.ofNat (readHexDigits ((hexDigits width c.toNat ++ rest).take width)),
        (hexDigits width c.toNat ++ rest).drop width) := by
    -- the letter is one of three, none of which stands for a blank
    unfold escapeWidth? at hletter
    split at hletter
    iterate 3 exact Option.some.inj hletter ▸ rfl
    cases hletter
  rw [hread, htake, hdrop, readHexDigits_hexDigits, Char.ofNat_toNat]

/-- The escape of a code point is read back as its character. -/
theorem readQuotedChar?_escapeCodePoint (c : Char) (rest : List Char) :
    readQuotedChar? (escapeCodePoint c.toNat ++ rest) = some (c, rest) := by
  unfold escapeCodePoint
  split_ifs with hsmall hmiddle
  · exact readQuotedChar?_digits (by decide) rfl hsmall rest
  · exact readQuotedChar?_digits (by decide) rfl hmiddle rest
  · have hc : c.toNat < 16 ^ 8 := by
      have hvalid : c.toNat < 1114112 := by
        rcases c.valid with h | h
        · exact h.trans (by decide)
        · exact h.2
      exact hvalid.trans (by decide)
    exact readQuotedChar?_digits (by decide) rfl hc rest

/-- A character is read back from a quoted text, whatever follows. -/
theorem readQuotedChar?_quoteChar {quote : Char} (hquote : IsQuote quote) (c : Char)
    (rest : List Char) : readQuotedChar? (quoteChar quote c ++ rest) = some (c, rest) := by
  unfold quoteChar
  split_ifs with hmark hnewline hreturn htab hprintable
  · rcases hquote with rfl | rfl <;> rcases hmark with rfl | rfl <;> rfl
  · rw [hnewline]
    rfl
  · rw [hreturn]
    rfl
  · rw [htab]
    rfl
  · exact readQuotedChar?_bare (fun hc => hmark (Or.inr hc)) rest
  · exact readQuotedChar?_escapeCodePoint c rest

/-- Quoted characters are told apart, whatever follows. -/
theorem quoteChar_append_inj {quote c d : Char} (hquote : IsQuote quote) {rest rest' : List Char}
    (h : quoteChar quote c ++ rest = quoteChar quote d ++ rest') : c = d ∧ rest = rest' := by
  have hread := congrArg readQuotedChar? h
  rw [readQuotedChar?_quoteChar hquote, readQuotedChar?_quoteChar hquote] at hread
  exact Prod.mk.inj (Option.some.inj hread)

/-- Inside of a quoted text, a quote only stands behind a backslash. -/
theorem quoteChar_append_ne {quote : Char} (hquote : IsQuote quote) (c : Char)
    (rest rest' : List Char) : quoteChar quote c ++ rest ≠ quote :: rest' := by
  have hbackslash : '\\' ≠ quote := by
    rcases hquote with rfl | rfl <;> decide
  intro h
  unfold quoteChar escapeCodePoint at h
  split_ifs at h with hmark
  all_goals first
    | exact hbackslash (List.cons.inj h).1
    | exact hmark (Or.inl (List.cons.inj h).1)

/-! ### Whole texts -/

/-- What stands between the same quotes is told apart, up to the closing one. -/
theorem quotedBody_inj {quote : Char} (hquote : IsQuote quote) {s t rest rest' : List Char}
    (h : s.flatMap (quoteChar quote) ++ quote :: rest =
      t.flatMap (quoteChar quote) ++ quote :: rest') : s = t ∧ rest = rest' := by
  induction s generalizing t with
  | nil =>
    cases t with
    | nil => exact ⟨rfl, (List.cons.inj h).2⟩
    | cons d t =>
      rw [List.flatMap_cons, List.append_assoc] at h
      exact absurd h.symm (quoteChar_append_ne hquote d _ _)
  | cons c s ih =>
    rw [List.flatMap_cons, List.append_assoc] at h
    cases t with
    | nil => exact absurd h (quoteChar_append_ne hquote c _ _)
    | cons d t =>
      rw [List.flatMap_cons, List.append_assoc] at h
      obtain ⟨hhead, htail⟩ := quoteChar_append_inj hquote h
      obtain ⟨hbody, hrest⟩ := ih htail
      exact ⟨by rw [hhead, hbody], hrest⟩

theorem quoteChars_append_inj {s t rest rest' : List Char}
    (h : quoteChars s ++ rest = quoteChars t ++ rest') : s = t ∧ rest = rest' := by
  unfold quoteChars at h
  simp only [List.cons_append, List.append_assoc, List.nil_append] at h
  obtain ⟨hquote, hbody⟩ := List.cons.inj h
  rw [← hquote] at hbody
  exact quotedBody_inj (isQuote_chooseQuote s) hbody

/-- Two quoted texts with whatever follows are the same only if the texts are and what follows
is. -/
theorem quoted_append_inj {s t : String} {rest rest' : List Char}
    (h : (quoted s).toList ++ rest = (quoted t).toList ++ rest') : s = t ∧ rest = rest' := by
  rw [quoted, quoted, String.toList_ofList, String.toList_ofList] at h
  obtain ⟨hchars, hrest⟩ := quoteChars_append_inj h
  exact ⟨String.toList_injective hchars, hrest⟩

end SyntaxDiagram
