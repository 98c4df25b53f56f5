import SyntaxDiagram.Binary64.Decimal

/-!
# Numbers

A number is an unbounded integer or a double. Arithmetic on two integers stays exact; as soon as a
double is involved, the integer is converted to a double first, which fails with an `Overflow` when
it rounds past the greatest one.
-/

namespace SyntaxDiagram

/-- Why an integer cannot take part in double precision arithmetic. -/
inductive Overflow where
  /-- An integer is too large to be a double. -/
  | integer
  /-- A quotient of integers is too large to be a double. -/
  | quotient
  deriving DecidableEq, Repr

/-- The text of an overflow. -/
def Overflow.message : Overflow → String
  | .integer => "int too large to convert to float"
  | .quotient => "integer division result too large for a float"

/-- An unbounded integer or a double. -/
inductive Number where
  | int (value : Int)
  | real (value : Binary64)
  deriving DecidableEq, Repr

namespace Number

/-! ### Conversion -/

/-- The double nearest to an integer. -/
def binary64OfInt (n : Int) : Except Overflow Binary64 :=
  let value := Binary64.ofInt n
  if value.isInfinite then .error .integer else .ok value

/-- The double nearest to a number. -/
def toBinary64 : Number → Except Overflow Binary64
  | .int n => binary64OfInt n
  | .real x => .ok x

/-- Half of an integer, as a double. -/
def halfOfInt (n : Int) : Except Overflow Binary64 :=
  let value := Binary64.halfOfInt n
  if value.isInfinite then .error .quotient else .ok value

/-- Whether a number is finite. An integer is, but it has to fit a double to be asked. -/
def isFinite (number : Number) : Except Overflow Bool :=
  number.toBinary64.map Binary64.isFinite

/-- Zero or less. Not a number is neither. -/
def isNonpositive : Number → Bool
  | .int n => n ≤ 0
  | .real x => x.isNonpositive

/-- The least integer that is not below a finite number. -/
def ceil? : Number → Option Int
  | .int n => some n
  | .real x => x.ceil?

/-! ### Arithmetic -/

/-- Sum. -/
def add : Number → Number → Except Overflow Number
  | .int m, .int n => .ok (.int (m + n))
  | a, b => do
    let x ← a.toBinary64
    let y ← b.toBinary64
    return .real (x.add y)

/-- Product. -/
def mul : Number → Number → Except Overflow Number
  | .int m, .int n => .ok (.int (m * n))
  | a, b => do
    let x ← a.toBinary64
    let y ← b.toBinary64
    return .real (x.mul y)

/-- Numeric equality, exact between an integer and a double. -/
def eq : Number → Number → Bool
  | .int m, .int n => m == n
  | .real x, .real y => x.eq y
  | .int m, .real y => y.toInt? == some m
  | .real x, .int n => x.toInt? == some n

/-! ### Texts -/

/-- The exact text of a number: an integer in full, a double in the fewest digits that read back. -/
def debug : Number → String
  | .int n => toString n
  | .real x => x.debug

/-- The text of a number as a double with six significant digits. -/
def brief (number : Number) : Except Overflow String :=
  number.toBinary64.map Binary64.brief

end Number

end SyntaxDiagram
