import SyntaxDiagram.Fault

/-!
# Equality of elements

Elements are equal when they have the same structure. The comparison goes from left to right and
ends at the first difference. Nothing can be said about two foreign elements, so a comparison that
reaches a pair of them fails; looking an element up fails when one is anywhere in it.
-/

namespace SyntaxDiagram

namespace Element

mutual

/-- Whether two elements are equal. -/
def equal : Element → Element → Except Fault Bool
  | .literal s, .literal t => .ok (s == t)
  | .reference i k, .reference j l => .ok (i == j && k == l)
  | .sequence xs, .sequence ys => equalList xs ys
  | .alternation xs, .alternation ys => equalList xs ys
  | .quantified x p, .quantified y q => do
    if ← equal x y then return p == q else return false
  | .foreign _, .foreign _ => .error .incomparable
  | _, _ => .ok false

/-- Whether two lists of elements are equal. -/
def equalList : List Element → List Element → Except Fault Bool
  | [], [] => .ok true
  | x :: xs, y :: ys => do
    if ← equal x y then equalList xs ys else return false
  | _, _ => .ok false

end

/-- Whether an element is from outside the closed set of variants. -/
def isForeign : Element → Bool
  | .foreign _ => true
  | _ => false

/-- Whether an element can be looked up: nothing in it is foreign. -/
def isKey (element : Element) : Bool :=
  !element.walk.any isForeign

end Element

/-- Whether two lists of alternatives are equal. -/
def equalAlternatives : List (List Element) → List (List Element) → Except Fault Bool
  | [], [] => .ok true
  | x :: xs, y :: ys => do
    if ← Element.equalList x y then equalAlternatives xs ys else return false
  | _, _ => .ok false

end SyntaxDiagram
