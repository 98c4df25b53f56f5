/-!
# Rounding and magnitude of ratios

Exact helpers on a positive ratio `num / den` of natural numbers: its nearest natural number, and
its order of magnitude in bases two and ten. Everything that turns an exact value into finitely
many digits, binary or decimal, goes through these functions.
-/

namespace SyntaxDiagram

/-- The natural number nearest to `num / den`; a ratio halfway between two goes to the even one. -/
def halfEven (num den : Nat) : Nat :=
  let quotient := num / den
  let twice := 2 * (num % den)
  if twice < den then quotient
  else if den < twice then quotient + 1
  else if quotient % 2 = 0 then quotient
  else quotient + 1

/-- What is whole is not rounded. -/
theorem halfEven_mul_right (n den : Nat) (h : 0 < den) : halfEven (n * den) den = n := by
  simp [halfEven, Nat.mul_div_cancel n h, h]

/-- The largest `e` with `2 ^ e ≤ num / den`, for positive `num` and `den`. Below one, it is found
from the least power of two that lifts the ratio to one. -/
def floorLog2 (num den : Nat) : Int :=
  if den ≤ num then ((num / den).log2 : Int)
  else -(((den - 1) / num).log2 + 1 : Int)

/-- The number of decimal digits of `n`. -/
def digitCount (n : Nat) : Nat :=
  (Nat.toDigits 10 n).length

/-- The largest `e` with `10 ^ e ≤ num / den`, for positive `num` and `den`. -/
def floorLog10 (num den : Nat) : Int :=
  if den ≤ num then (digitCount (num / den) : Int) - 1
  else -(digitCount ((den - 1) / num) : Int)

/-- The ratio `num / den * base ^ power` as a numerator and a denominator. -/
def scaleRatio (base : Nat) (power : Int) (num den : Nat) : Nat × Nat :=
  if 0 ≤ power then (num * base.pow power.toNat, den)
  else (num, den * base.pow (-power).toNat)

/-! ### Examples -/

example : halfEven 5 2 = 2 ∧ halfEven 7 2 = 4 ∧ halfEven 8 3 = 3 := by decide

example : floorLog2 1 3 = -2 ∧ floorLog2 1 4 = -2 ∧ floorLog2 9 2 = 2 := by decide

example : floorLog10 1 10 = -1 ∧ floorLog10 1 11 = -2 ∧ floorLog10 999 1 = 2 := by decide

end SyntaxDiagram
