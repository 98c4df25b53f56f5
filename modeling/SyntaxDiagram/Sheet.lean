import SyntaxDiagram.Box.Format
import SyntaxDiagram.OutputFormat

/-!
# Sheets

Boxes and diagrams can be placed step by step, in part and again. A `Sketch` is a box of which any
part may be placed or not, and a `Sheet` holds a diagram that is drawn once, after which only its
boxes can be moved.
-/

namespace SyntaxDiagram

/-- A box of which any part may be placed or not. -/
abbrev Sketch := Box (Option Placement)

namespace Sketch

/-- The sketch with the box reached by a path placed, if there is one. -/
def placeAt? (m : Metrics) (x y span : Int) (path : List Nat) (sketch : Sketch) : Option Sketch :=
  sketch.modifyAt? (Box.format m x y span) path

/-- The points where a box is entered and left. It has to be placed. -/
def endPoints (sketch : Sketch) : Except Fault (Point × Point) :=
  match sketch.frame.place with
  | none => .error .unplaced
  | some place => .ok ((place.x, place.y), (place.x + sketch.width, place.y))

/-- The connectors of all boxes that are placed. -/
def connectors (sketch : Sketch) : List Connector :=
  sketch.boxes.flatMap fun box => (box.frame.place.map (·.connectors)).getD []

end Sketch

namespace Box

variable {α : Type}

mutual

/-- The tree of which all boxes are placed. -/
def placed? : Box (Option α) → Option (Box α)
  | .label frame kind text => do
    return .label (frame.moveTo (← frame.place)) kind text
  | .line frame role items => do
    return .line (frame.moveTo (← frame.place)) role (← placedList? items)
  | .branch frame mainIndex separators offsets items => do
    return .branch (frame.moveTo (← frame.place)) mainIndex separators offsets (← placedList? items)
  | .loop frame offset item => do
    return .loop (frame.moveTo (← frame.place)) offset (← placed? item)

/-- The trees of which all boxes are placed. -/
def placedList? : List (Box (Option α)) → Option (List (Box α))
  | [] => some []
  | box :: rest => do
    return (← placed? box) :: (← placedList? rest)

end

end Box

/-- A diagram that is planned or drawn, with its ends and the connectors there as far as they are
known. -/
structure Sheet where
  diagram : Diagram (Option Placement)
  start : Option Point
  finish : Option Point
  termini : List Connector
  isDrawn : Bool

namespace Sheet

/-- The sheet of a diagram that is yet to be drawn. -/
def planned (diagram : Diagram (Option Placement)) : Sheet :=
  ⟨diagram, none, none, [], false⟩

/-- The sheet of a diagram that has been drawn. -/
def drawn (drawing : Drawing) : Sheet :=
  { diagram := drawing.diagram.withRoot (drawing.diagram.root.map some)
    start := some drawing.start
    finish := some drawing.finish
    termini := drawing.termini
    isDrawn := true }

/-- The start and the end of a drawn diagram. -/
def endPoints? (sheet : Sheet) : Option (Point × Point) := do
  return (← sheet.start, ← sheet.finish)

/-- All connectors on a sheet: those at the ends, then those of the boxes. -/
def connectors (sheet : Sheet) : List Connector :=
  sheet.termini ++ Sketch.connectors sheet.diagram.root

/-- The sheet with its diagram drawn. Nothing changes if it was drawn before. -/
def draw (m : Metrics) (sheet : Sheet) : Sheet :=
  if sheet.isDrawn then sheet else
    let x := sheet.diagram.padding
    let y := sheet.diagram.padding + sheet.diagram.up
    let rootX := x + m.terminusWidth
    let root := sheet.diagram.root.format m rootX y sheet.diagram.root.width
    let farX := rootX + root.width
    { diagram := sheet.diagram.withRoot root
      start := some (x, y)
      finish := some (farX + m.terminusWidth, y)
      termini := sheet.termini ++ [.right x y .line m.terminusWidth] ++
        [.right farX y .line m.terminusWidth]
      isDrawn := true }

/-- The sheet with the box reached by a path placed, if there is one. -/
def placeAt? (m : Metrics) (x y span : Int) (path : List Nat) (sheet : Sheet) : Option Sheet := do
  let root ← Sketch.placeAt? m x y span path sheet.diagram.root
  return { sheet with diagram := sheet.diagram.withRoot root }

/-- The drawing on a sheet with everything in place. -/
def drawing? (sheet : Sheet) : Option Drawing := do
  let root ← sheet.diagram.root.placed?
  return ⟨sheet.diagram.withRoot root, ← sheet.start, ← sheet.finish, sheet.termini⟩

/-- The text of a sheet in a format by any spelling of its name, and the sheet afterwards. A sheet
is drawn for it unless the format does not exist. -/
def render (m : Metrics) (theme : Theme) (name : String) (sheet : Sheet) :
    Except Fault String × Sheet :=
  match OutputFormat.forDiagram sheet.diagram.identifier name with
  | .error fault => (.error fault, sheet)
  | .ok format =>
    let sheet := sheet.draw m
    match sheet.drawing? with
    | none => (.error .unplaced, sheet)
    | some drawing => (format.write m theme drawing, sheet)

end Sheet

end SyntaxDiagram
