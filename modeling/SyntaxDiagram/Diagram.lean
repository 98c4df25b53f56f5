import SyntaxDiagram.Box.Place
import SyntaxDiagram.Entry.Basic

/-!
# Diagrams

A diagram wraps the box of a production with a start and an end on the track and with blank space
around it. A `Drawing` is a diagram with everything in place.
-/

namespace SyntaxDiagram

/-- The diagram of a production, with sizes. -/
structure Diagram (α : Type) where
  identifier : String
  documentation : String
  isFragment : Bool
  padding : Int
  up : Int
  down : Int
  width : Int
  height : Int
  root : Box α
  deriving Repr

namespace Diagram

variable {α : Type}

/-- The usual blank space around a diagram. -/
def standardPadding : Int := 20

/-- The diagram of an entry around a box. -/
def ofBox (m : Metrics) (entry : Entry) (root : Box α) (padding : Int) : Diagram α :=
  let up := max root.up (m.terminusWidth.fdiv 2)
  let down := max root.down (m.terminusWidth.fdiv 2)
  { identifier := entry.identifier
    documentation := entry.documentation
    isFragment := entry.kind.isFragment
    padding
    up
    down
    width := root.width + m.terminusWidth * 2 + padding * 2
    height := up + down + padding * 2
    root }

/-- The exact text of a diagram. -/
def debug (diagram : Diagram α) : String :=
  "LayoutGeometry(" ++ quoted diagram.identifier ++ ", " ++ diagram.root.debug ++ ")"

/-- The same diagram around another box. -/
def withRoot {β : Type} (diagram : Diagram α) (root : Box β) : Diagram β :=
  { diagram with root }

end Diagram

/-- A diagram in place, with the points at its start and at its end and the two connectors there. -/
structure Drawing where
  diagram : Diagram Placement
  start : Point
  finish : Point
  termini : List Connector
  deriving Repr

namespace Diagram

variable {α : Type}

/-- The drawing of a diagram. -/
def draw (m : Metrics) (diagram : Diagram α) : Drawing :=
  let x := diagram.padding
  let y := diagram.padding + diagram.up
  let rootX := x + m.terminusWidth
  let farX := rootX + diagram.root.width
  { diagram := diagram.withRoot (diagram.root.place m rootX y diagram.root.width)
    start := (x, y)
    finish := (farX + m.terminusWidth, y)
    termini := [.right x y .line m.terminusWidth, .right farX y .line m.terminusWidth] }

end Diagram

namespace Drawing

/-- All connectors of a drawing: those at its ends, then those of its boxes. -/
def connectors (drawing : Drawing) : List Connector :=
  drawing.termini ++ drawing.diagram.root.connectors

end Drawing

end SyntaxDiagram
