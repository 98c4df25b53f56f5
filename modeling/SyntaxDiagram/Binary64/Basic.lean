import SyntaxDiagram.Rounding

/-!
# Double precision numbers

A double is a sign, a natural significand below `2 ^ 53` and a power of two, an infinity, or not a
number. Every operation is computed exactly on ratios and rounded once, to nearest with ties to
the even significand, by `Binary64.ofRatio`.
-/

namespace SyntaxDiagram

/-- A double precision number. A finite one is `± significand * 2 ^ exponent`, in the canonical
form that `Binary64.ofRatio` gives it; zero keeps its sign. -/
inductive Binary64 where
  | nan
  | infinity (negative : Bool)
  | finite (negative : Bool) (significand : Nat) (exponent : Int)
  deriving DecidableEq, Repr

namespace Binary64

/-! ### Rounding to a double -/

/-- The least exponent of a finite double. -/
def minExponent : Int := -1074

/-- The greatest exponent of a finite double. -/
def maxExponent : Int := 971

/-- Zero, with a sign. -/
def zero (negative : Bool) : Binary64 :=
  .finite negative 0 minExponent

/-- The double nearest to `± num / den`. The exponent is chosen so that the significand has 53
bits, or fewer when the value is below the normal range; a value past the greatest double is
infinite. -/
def ofRatio (negative : Bool) (num den : Nat) : Binary64 :=
  if num = 0 then zero negative
  else
    let exponent := max (floorLog2 num den - 52) minExponent
    let (num', den') := scaleRatio 2 (-exponent) num den
    let significand := halfEven num' den'
    let (significand, exponent) :=
      if significand = Nat.pow 2 53 then (Nat.pow 2 52, exponent + 1) else (significand, exponent)
    if maxExponent < exponent then .infinity negative
    else .finite negative significand exponent

/-- The double nearest to `± m * 2 ^ e`. -/
def ofDyadic (negative : Bool) (m : Nat) (e : Int) : Binary64 :=
  let (num, den) := scaleRatio 2 e m 1
  ofRatio negative num den

/-- The double nearest to an integer. -/
def ofInt (n : Int) : Binary64 :=
  ofRatio (n < 0) n.natAbs 1

/-- The double nearest to half of an integer. -/
def halfOfInt (n : Int) : Binary64 :=
  ofRatio (n < 0) n.natAbs 2

/-! ### Sign and size -/

/-- Neither an infinity nor not a number. -/
def isFinite : Binary64 → Bool
  | .finite .. => true
  | _ => false

/-- An infinity of either sign. -/
def isInfinite : Binary64 → Bool
  | .infinity _ => true
  | _ => false

/-- Zero or less. Not a number is neither. -/
def isNonpositive : Binary64 → Bool
  | .nan => false
  | .infinity negative => negative
  | .finite negative significand _ => negative || significand == 0

/-- The least integer that is not below the value; `none` unless the value is finite. -/
def ceil? : Binary64 → Option Int
  | .finite negative significand exponent =>
    let (num, den) := scaleRatio 2 exponent significand 1
    some (if negative then -((num / den : Nat) : Int) else (((num + (den - 1)) / den : Nat) : Int))
  | _ => none

/-- The exact integer value, if there is one. -/
def toInt? : Binary64 → Option Int
  | .finite negative significand exponent =>
    let (num, den) := scaleRatio 2 exponent significand 1
    if num % den = 0 then
      some (if negative then -((num / den : Nat) : Int) else ((num / den : Nat) : Int))
    else none
  | _ => none

/-! ### Arithmetic -/

/-- The significand with its sign, brought down to the exponent `e`. -/
def signedAt (e : Int) (negative : Bool) (significand : Nat) (exponent : Int) : Int :=
  let magnitude : Int := ((significand * Nat.pow 2 (exponent - e).toNat : Nat) : Int)
  if negative then -magnitude else magnitude

/-- Sum. An exact zero is negative only when both operands are negative zeros; infinities of
opposite signs have no sum. -/
def add : Binary64 → Binary64 → Binary64
  | .nan, _ => .nan
  | _, .nan => .nan
  | .infinity s, .infinity t => if s = t then .infinity s else .nan
  | .infinity s, .finite .. => .infinity s
  | .finite .., .infinity t => .infinity t
  | .finite s m e, .finite t n f =>
    let low := min e f
    let sum := signedAt low s m e + signedAt low t n f
    if sum = 0 then zero (s && t)
    else ofDyadic (sum < 0) sum.natAbs low

/-- Product. Zero times an infinity is not a number. -/
def mul : Binary64 → Binary64 → Binary64
  | .nan, _ => .nan
  | _, .nan => .nan
  | .infinity s, .infinity t => .infinity (s != t)
  | .infinity s, .finite t n _ => if n = 0 then .nan else .infinity (s != t)
  | .finite s m _, .infinity t => if m = 0 then .nan else .infinity (s != t)
  | .finite s m e, .finite t n f => ofDyadic (s != t) (m * n) (e + f)

/-- Numeric equality: zeros of both signs are equal, and not a number equals nothing. -/
def eq : Binary64 → Binary64 → Bool
  | .nan, _ => false
  | _, .nan => false
  | .finite s m e, .finite t n f =>
    (m == 0 && n == 0) || (s == t && m == n && e == f)
  | a, b => a == b

/-! ### Examples -/

example : ofInt 3 = .finite false (3 * 2 ^ 51) (-51) := by decide +kernel

example : add (ofRatio false 1 10) (ofRatio false 2 10) ≠ ofRatio false 3 10 := by decide +kernel

example : ofInt (2 ^ 53 + 1) = ofInt (2 ^ 53) := by decide +kernel

end Binary64

end SyntaxDiagram
