/-!
# Sets of code points

A set of characters given as a sorted table of ranges of code points.
-/

namespace SyntaxDiagram

/-- Whether a code point lies in one of the ranges `(first, last)` of a table sorted upwards. The
search ends at the first range above the code point. -/
def inRanges : List (Nat × Nat) → Nat → Bool
  | [], _ => false
  | (first, last) :: rest, n => if n < first then false else n ≤ last || inRanges rest n

example : inRanges [(3, 5), (9, 9)] 4 = true ∧ inRanges [(3, 5), (9, 9)] 7 = false := by decide

end SyntaxDiagram
