import SyntaxDiagram.Layout
import SyntaxDiagram.Page
import SyntaxDiagram.Text.Blank
import SyntaxDiagram.Text.Lowercase

/-!
# Output formats

The formats that a drawing can be rendered in, the names they go by, and the measure of each.
-/

namespace SyntaxDiagram

/-- A format for drawings. -/
inductive OutputFormat where
  | svg
  | html
  deriving DecidableEq, Repr

namespace OutputFormat

/-- The normal form of the name of a format: no blanks around it, and in lower case. -/
def normalizeName (name : String) : String :=
  String.ofList (lowercase (trimBlanks name.toList))

/-- The name of a format. -/
def name : OutputFormat → String
  | .svg => "svg"
  | .html => "html"

/-- The format that a name in normal form stands for. -/
def ofNormalName? (name : String) : Option OutputFormat :=
  [svg, html].find? (·.name == name)

/-- The measure for a format by any spelling of its name. All formats use monospaced labels. -/
def measureFor (m : Metrics) (name : String) : Except Fault Measure :=
  match ofNormalName? (normalizeName name) with
  | some _ => .ok (.monospaced m)
  | none => .error (.ofCause (.unknownFormat name))

/-- The text of a drawing in a format. -/
def write (m : Metrics) (theme : Theme) (drawing : Drawing) : OutputFormat → Except Fault String
  | .svg => drawing.writeStandalone m theme none
  | .html => Page.write m theme drawing.diagram.identifier [drawing]

/-- The format for the diagram of an entry by any spelling of its name. -/
def forDiagram (identifier name : String) : Except Fault OutputFormat :=
  let normal := normalizeName name
  match ofNormalName? normal with
  | some format => .ok format
  | none => .error (.grammar (.about identifier (.unknownFormat normal)))

end OutputFormat

/-- The text of a drawing in a format by any spelling of its name. -/
def Drawing.render (m : Metrics) (theme : Theme) (drawing : Drawing) (name : String) :
    Except Fault String := do
  let format ← OutputFormat.forDiagram drawing.diagram.identifier name
  format.write m theme drawing

end SyntaxDiagram
