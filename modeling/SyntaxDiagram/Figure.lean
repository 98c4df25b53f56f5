import SyntaxDiagram.Diagram
import SyntaxDiagram.Markup.Basic

/-!
# Figures

The vector graphics of a drawing: a group for every box with its connectors and, for a label box,
its rectangle and its text. A label that names a rule or a terminal of the grammar is a link to the
diagram of that name.
-/

namespace SyntaxDiagram

/-- The style sheet of a diagram that comes without one. -/
def standardStyle : String :=
  "\tsvg.railroad-diagram \x7b\n" ++
  "\t\tbackground-color:hsl(30,20%,95%);\n" ++
  "\t\x7d\n" ++
  "\tsvg.railroad-diagram path \x7b\n" ++
  "\t\tstroke-width:3;\n" ++
  "\t\tstroke:black;\n" ++
  "\t\tfill:rgba(0,0,0,0);\n" ++
  "\t\x7d\n" ++
  "\tsvg.railroad-diagram text \x7b\n" ++
  "\t\tfont:bold 14px monospace;\n" ++
  "\t\ttext-anchor:middle;\n" ++
  "\t\x7d\n" ++
  "\tsvg.railroad-diagram rect\x7b\n" ++
  "\t\tstroke-width:3;\n" ++
  "\t\tstroke:black;\n" ++
  "\t\tfill:hsl(120,100%,90%);\n" ++
  "\t\x7d\n" ++
  "\tsvg.railroad-diagram g.non-terminal rect \x7b\n" ++
  "\t\tfill:hsl(120,100%,95%);\n" ++
  "\t\x7d\n"

/-- How figures look. -/
structure Theme where
  /-- The class of the whole figure. -/
  diagramClass : String
  /-- Whether strokes are an odd number of pixels wide, which asks for a shift by half a pixel. -/
  oddStroke : Bool
  /-- How far the text of a label sits below its line. -/
  textBaseline : Number
  /-- The style sheet of a figure that comes without one. -/
  style : String
  deriving DecidableEq, Repr

/-- The usual look. -/
def Theme.standard : Theme :=
  { diagramClass := "railroad-diagram"
    oddStroke := true
    textBaseline := .int 4
    style := standardStyle }

/-- A connector as a path. Its role is its class, unless it is plain track. -/
def Connector.toMarkup (radius : Int) (connector : Connector) : Markup :=
  .leaf "path" (("d", .text (connector.pathData radius)) ::
    if connector.role = .line then [] else [("class", .text connector.role.name)])

namespace Box

/-- The class of the group of a box. -/
def groupClass : Box Placement → String
  | .label _ .terminal _ => "terminal"
  | .label _ (.rule _) _ => "non-terminal"
  | box => box.kindName

/-- The attributes of the group of a box. -/
def groupAttributes (box : Box Placement) : List (String × AttributeValue) :=
  (box.frame.note.toList.map fun note => ("data-x", .text note)) ++
    [("class", .text box.groupClass)]

/-- The rectangle of a label box. That of a terminal has round corners. -/
def labelRectangle (frame : Frame Placement) (kind : LabelKind) : Markup :=
  .leaf "rect" ([("x", .number (.int frame.place.x)),
      ("y", .number (.int (frame.place.y - frame.up))),
      ("width", .number (.int frame.width)), ("height", .number (.int frame.height))] ++
    match kind with
    | .terminal => [("rx", .number (.int 10)), ("ry", .number (.int 10))]
    | .rule _ => [])

/-- The middle of a label box, where its text is anchored. -/
def labelMiddle (frame : Frame Placement) : Except Overflow Number := do
  let half ← Number.halfOfInt frame.width
  (Number.int frame.place.x).add (.real half)

/-- Whether a label is a link: it names a rule or a terminal of the grammar. -/
def isLinked : LabelKind → Bool
  | .rule (some .rule) => true
  | .rule (some .terminal) => true
  | _ => false

/-- The rectangle and the text of a label box. -/
def labelMarkup (theme : Theme) (frame : Frame Placement) (kind : LabelKind) (text : String) :
    Except Fault (List Markup) := do
  let x ← Overflow.lift (labelMiddle frame)
  let y ← Overflow.lift ((Number.int frame.place.y).add theme.textBaseline)
  let label := Markup.withText "text" [("x", .number x), ("y", .number y)] text
  let label := if isLinked kind then
    Markup.element "a" [("xlink:href", .text ("#" ++ text))] [label]
  else label
  return [labelRectangle frame kind, label]

/-- The connectors of a box as paths. -/
def trackMarkup (radius : Int) (frame : Frame Placement) : List Markup :=
  frame.place.connectors.map (·.toMarkup radius)

mutual

/-- The group of a placed box. -/
def toMarkup (m : Metrics) (theme : Theme) : Box Placement → Except Fault Markup
  | .label frame kind text => do
    let label ← labelMarkup theme frame kind text
    return .element "g" (groupAttributes (.label frame kind text))
      (label ++ trackMarkup m.arcRadius frame)
  | .line frame role items => do
    let groups ← toMarkupList m theme items
    return .element "g" (groupAttributes (.line frame role items))
      (trackMarkup m.arcRadius frame ++ groups)
  | .branch frame mainIndex separators offsets items => do
    let groups ← toMarkupList m theme items
    return .element "g" (groupAttributes (.branch frame mainIndex separators offsets items))
      (trackMarkup m.arcRadius frame ++ groups)
  | .loop frame offset item => do
    let group ← toMarkup m theme item
    return .element "g" (groupAttributes (.loop frame offset item))
      (trackMarkup m.arcRadius frame ++ [group])

/-- The groups of some placed boxes. -/
def toMarkupList (m : Metrics) (theme : Theme) :
    List (Box Placement) → Except Fault (List Markup)
  | [] => .ok []
  | box :: rest => do
    let group ← toMarkup m theme box
    let groups ← toMarkupList m theme rest
    return group :: groups

end

end Box

namespace Drawing

/-- The marker at one end of a diagram, given its left end: two vertical bars. -/
def terminusMarker (x y : Int) : Markup :=
  .leaf "path" [("d", .text ("M " ++ toString x ++ " " ++ toString (y - 10) ++
    " v 20 m 10 -20 v 20"))]

/-- The attributes of a whole figure. -/
def figureAttributes (theme : Theme) (drawing : Drawing) : List (String × AttributeValue) :=
  let width := drawing.diagram.width
  let height := drawing.diagram.height
  [("class", .text theme.diagramClass), ("width", .number (.int width)),
    ("height", .number (.int height)),
    ("viewBox", .text ("0 0 " ++ toString width ++ " " ++ toString height))]

/-- Everything inside a figure. -/
def content (m : Metrics) (theme : Theme) (drawing : Drawing) : Except Fault Markup := do
  let root ← drawing.diagram.root.toMarkup m theme
  let shift := if theme.oddStroke then [("transform", .text "translate(.5 .5)")] else []
  return .element "g" shift
    (terminusMarker drawing.start.1 drawing.start.2 ::
      drawing.termini.map (·.toMarkup m.arcRadius) ++
      [root, terminusMarker (drawing.finish.1 - 10) drawing.finish.2])

/-- The figure of a drawing. -/
def figure (m : Metrics) (theme : Theme) (drawing : Drawing) : Except Fault Markup := do
  let content ← drawing.content m theme
  return .element "svg" (drawing.figureAttributes theme) [content]

/-- The figure of a drawing as a document of its own, with a style sheet. -/
def standaloneFigure (m : Metrics) (theme : Theme) (css : String) (drawing : Drawing) :
    Except Fault Markup := do
  let content ← drawing.content m theme
  return .element "svg"
    (drawing.figureAttributes theme ++
      [("xmlns", .text "http://www.w3.org/2000/svg"),
        ("xmlns:xlink", .text "http://www.w3.org/1999/xlink")])
    [content, .style css]

/-- The text of a figure as a document of its own; without a style sheet it has the usual one. -/
def writeStandalone (m : Metrics) (theme : Theme) (css : Option String) (drawing : Drawing) :
    Except Fault String := do
  (← drawing.standaloneFigure m theme (css.getD theme.style)).write

end Drawing

end SyntaxDiagram
