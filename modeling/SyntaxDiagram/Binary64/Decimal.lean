import SyntaxDiagram.Binary64.Basic

/-!
# Decimal text of doubles

Two ways to choose the digits of a double, `Binary64.shortestDigits` and
`Binary64.roundedDigits`, and one way to lay chosen digits out, `DecimalStyle.write`. The texts in
use are `Binary64.debug`, which reads back as the same double, and `Binary64.brief`, which keeps
six digits. `Binary64.read?` reads a decimal text.
-/

namespace SyntaxDiagram

/-! ### Digits and their layout -/

/-- The number `d₀.d₁d₂… * 10 ^ exponent`, without trailing zeros. -/
structure ScientificDigits where
  digits : List Char
  exponent : Int
  deriving DecidableEq, Repr

namespace ScientificDigits

/-- The digits of zero. -/
def zero : ScientificDigits :=
  ⟨['0'], 0⟩

/-- The digits of `n * 10 ^ (-scale)`, for positive `n`. -/
def ofScaled (n : Nat) (scale : Int) : ScientificDigits :=
  let digits := Nat.toDigits 10 n
  ⟨(digits.reverse.dropWhile (· == '0')).reverse, digits.length - 1 - scale⟩

end ScientificDigits

/-- How chosen digits are laid out: positional notation serves the exponents from `plainFrom` up to
but not including `plainBelow`; `keepsPoint` writes an integral number with a final `.0`. -/
structure DecimalStyle where
  plainFrom : Int
  plainBelow : Int
  keepsPoint : Bool

namespace DecimalStyle

/-- The sign and the digits of an exponent, at least two of them. -/
def exponentText (exponent : Int) : List Char :=
  let digits := Nat.toDigits 10 exponent.natAbs
  (if exponent < 0 then '-' else '+') :: (List.replicate (2 - digits.length) '0' ++ digits)

/-- A point and the fraction digits, or what stands for an empty fraction. -/
def fractionText (keepsPoint : Bool) : List Char → List Char
  | [] => if keepsPoint then ['.', '0'] else []
  | digits => '.' :: digits

/-- The text of an unsigned number. -/
def writeChars (style : DecimalStyle) (number : ScientificDigits) : List Char :=
  let digits := number.digits
  if style.plainFrom ≤ number.exponent ∧ number.exponent < style.plainBelow then
    if number.exponent < 0 then
      '0' :: '.' :: (List.replicate ((-number.exponent).toNat - 1) '0' ++ digits)
    else
      let places := number.exponent.toNat + 1
      digits.take places ++ List.replicate (places - digits.length) '0' ++
        fractionText style.keepsPoint (digits.drop places)
  else
    digits.take 1 ++ fractionText false (digits.drop 1) ++ 'e' :: exponentText number.exponent

/-- The text of a number, with a minus sign when it is negative. -/
def write (style : DecimalStyle) (negative : Bool) (number : ScientificDigits) : String :=
  let chars := style.writeChars number
  String.ofList (if negative then '-' :: chars else chars)

end DecimalStyle

namespace Binary64

/-! ### Choosing digits -/

/-- The digits of `num / den` rounded to `count` significant ones, a tie going to the even last
digit. -/
def roundedDigits (count num den : Nat) : ScientificDigits :=
  if num = 0 then .zero
  else
    let scale := (count : Int) - 1 - floorLog10 num den
    let (num', den') := scaleRatio 10 scale num den
    .ofScaled (halfEven num' den') scale

/-- Whether `n * 10 ^ (-scale)` rounds to `x`. -/
def readsBack (x : Binary64) (scale : Int) (n : Nat) : Bool :=
  let (num, den) := scaleRatio 10 (-scale) n 1
  ofRatio false num den == x

/-- The number with `count` significant digits nearest to `num / den` among those that round to `x`,
when there is one. Only the two neighbours of the ratio on that decimal grid can be. -/
def digitsReadingBack? (x : Binary64) (num den count : Nat) : Option ScientificDigits :=
  let scale := (count : Int) - 1 - floorLog10 num den
  let (num', den') := scaleRatio 10 scale num den
  let below := num' / den'
  match readsBack x scale below, readsBack x scale (below + 1) with
  | true, true => some (.ofScaled (halfEven num' den') scale)
  | true, false => some (.ofScaled below scale)
  | false, true => some (.ofScaled (below + 1) scale)
  | false, false => none

/-- The fewest digits that round to the double `num / den`, and of those the nearest. Seventeen
digits always do. -/
def shortestDigits (num den : Nat) : ScientificDigits :=
  if num = 0 then .zero
  else
    let x := ofRatio false num den
    ((List.range 17).findSome? fun k => digitsReadingBack? x num den (k + 1)).getD
      (roundedDigits 17 num den)

/-! ### Texts of a double -/

/-- Exponents from -4 to 15 are written in positional notation, and an integral number keeps a
point. -/
def debugStyle : DecimalStyle :=
  ⟨-4, 16, true⟩

/-- Exponents from -4 to 5 are written in positional notation, and an integral number has no
point. -/
def briefStyle : DecimalStyle :=
  ⟨-4, 6, false⟩

/-- The text of a double, given how to choose digits and how to lay them out. -/
def textWith (choose : Nat → Nat → ScientificDigits) (style : DecimalStyle) : Binary64 → String
  | .nan => "nan"
  | .infinity negative => if negative then "-inf" else "inf"
  | .finite negative significand exponent =>
    let (num, den) := scaleRatio 2 exponent significand 1
    style.write negative (choose num den)

/-- The shortest text that reads back as the same double. -/
def debug : Binary64 → String :=
  textWith shortestDigits debugStyle

/-- The text with six significant digits. -/
def brief : Binary64 → String :=
  textWith (roundedDigits 6) briefStyle

/-! ### Reading -/

/-- The value of a run of decimal digits. -/
def readDigits (digits : List Char) : Nat :=
  digits.foldl (fun value c => 10 * value + (c.toNat - '0'.toNat)) 0

/-- An optional sign in front of the rest. -/
def splitSign : List Char → Bool × List Char
  | '-' :: rest => (true, rest)
  | '+' :: rest => (false, rest)
  | rest => (false, rest)

/-- The power of ten written after an `e`; no text stands for zero. -/
def readExponent? : List Char → Option Int
  | [] => some 0
  | 'e' :: rest =>
    let (negative, digits) := splitSign rest
    if digits.isEmpty || !digits.all Char.isDigit then none
    else some (if negative then -(readDigits digits : Int) else readDigits digits)
  | _ => none

/-- An unsigned number with an optional fraction and an optional exponent. -/
def readUnsigned? (negative : Bool) (chars : List Char) : Option Binary64 :=
  let whole := chars.takeWhile Char.isDigit
  let rest := chars.dropWhile Char.isDigit
  let (fraction, rest) := match rest with
    | '.' :: rest => (rest.takeWhile Char.isDigit, rest.dropWhile Char.isDigit)
    | rest => ([], rest)
  if whole.isEmpty && fraction.isEmpty then none
  else
    (readExponent? rest).map fun exponent =>
      let (num, den) :=
        scaleRatio 10 (exponent - fraction.length) (readDigits (whole ++ fraction)) 1
      ofRatio negative num den

/-- The double nearest to a decimal text, or an infinity or not a number by name. -/
def read? (text : String) : Option Binary64 :=
  let (negative, chars) := splitSign text.toList
  if chars = "nan".toList then some .nan
  else if chars = "inf".toList then some (.infinity negative)
  else readUnsigned? negative chars

/-! ### Examples -/

example : (ofRatio false 1 10).debug = "0.1" := by decide +kernel

example : (ofInt 1000000).brief = "1e+06" ∧ (ofInt 999999).brief = "999999" := by decide +kernel

example : (ofInt (10 ^ 16)).debug = "1e+16" ∧ (zero true).debug = "-0.0" := by decide +kernel

example : read? "25.5" = some (ofRatio false 51 2) := by decide +kernel

end Binary64

end SyntaxDiagram
