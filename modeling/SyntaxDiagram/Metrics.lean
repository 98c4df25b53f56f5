import SyntaxDiagram.Number

/-!
# Metrics

The dimensions that a layout is made with, in abstract units, and how a box is placed in a wider
space.
-/

namespace SyntaxDiagram

/-- Where a box goes in a space wider than itself. -/
inductive Alignment where
  | left
  | right
  | center
  deriving DecidableEq, Repr

namespace Alignment

/-- The alignment with a name; any other name stands for the centre. -/
def ofName (name : String) : Alignment :=
  if name = "left" then .left
  else if name = "right" then .right
  else .center

/-- The gaps to the left and to the right of something of width `inner` in a space of width `outer`.
An odd unit of a centred box goes to the right. -/
def gaps (alignment : Alignment) (outer inner : Int) : Int × Int :=
  let rest := outer - inner
  match alignment with
  | .left => (0, rest)
  | .right => (rest, 0)
  | .center => (rest.fdiv 2, rest - rest.fdiv 2)

theorem gaps_sum (alignment : Alignment) (outer inner : Int) :
    (alignment.gaps outer inner).1 + (alignment.gaps outer inner).2 = outer - inner := by
  cases alignment <;> dsimp only [gaps] <;> omega

end Alignment

/-- The dimensions of a layout. -/
structure Metrics where
  /-- The least vertical distance between two things. -/
  separation : Int
  /-- The radius of arcs. -/
  arcRadius : Int
  /-- The width of a character of a label. -/
  charWidth : Number
  /-- The room around a label inside its box, both sides together. -/
  labelPadding : Int
  /-- How far a label box reaches above and below its line. -/
  labelHalfHeight : Int
  /-- The length of the line between two items of a sequence. -/
  itemGap : Int
  /-- The length of the lines at the start and at the end of a diagram. -/
  terminusWidth : Int
  /-- Where a box goes in a space wider than itself. -/
  alignment : Alignment
  /-- Whether boxes carry a note of their sizes. -/
  annotates : Bool
  deriving DecidableEq, Repr

/-- The usual dimensions; a character is 8.5 units wide. -/
def Metrics.standard : Metrics :=
  { separation := 8
    arcRadius := 10
    charWidth := .real (.ofRatio false 17 2)
    labelPadding := 20
    labelHalfHeight := 11
    itemGap := 20
    terminusWidth := 20
    alignment := .center
    annotates := false }

example : Alignment.gaps .center 11 8 = (1, 2) ∧ Alignment.gaps .center 8 11 = (-2, -1) := by decide

end SyntaxDiagram
