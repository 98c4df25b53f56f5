import SyntaxDiagram.Fault
import SyntaxDiagram.Metrics

/-!
# Measures

A measure gives the width of a label in the target format. It may have no answer, give up, or answer
with a number that is no width; a label is laid out only if its width is positive and finite.
-/

namespace SyntaxDiagram

/-- The width of a label, if there is one. -/
abbrev Measure := String → Except Fault (Option Number)

namespace Measure

/-- The same answer for every label. -/
def const (width : Option Number) : Measure :=
  fun _ => .ok width

/-- A fixed width for every character. -/
def perCharacter (charWidth : Number) : Measure :=
  fun label => Overflow.lift (((Number.int label.length).mul charWidth).map some)

/-- The width of monospaced text. -/
def monospaced (m : Metrics) : Measure :=
  perCharacter m.charWidth

/-- A measure as it is given, or that of monospaced text. -/
def orMonospaced (m : Metrics) (measure : Option Measure) : Measure :=
  measure.getD (monospaced m)

/-- The whole units that a measured width takes; `none` unless it is positive and finite. -/
def wholeUnits (width : Number) : Except Fault (Option Int) := do
  if ← Overflow.lift width.isFinite then
    return if width.isNonpositive then none else width.ceil?
  else return none

/-- The whole units that a label takes. -/
def labelWidth (measure : Measure) (label : String) : Except Fault Int := do
  let width ← measure label
  let units ← match width with
    | none => pure none
    | some width => wholeUnits width
  match units with
  | some units => return units
  | none => throw (.ofCause (.unmeasurable label width))

end Measure

end SyntaxDiagram
