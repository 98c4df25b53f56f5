import SyntaxDiagram.Batch
import SyntaxDiagram.Binary64.Basic
import SyntaxDiagram.Binary64.Decimal
import SyntaxDiagram.Box.Basic
import SyntaxDiagram.Box.Build
import SyntaxDiagram.Box.Format
import SyntaxDiagram.Box.Place
import SyntaxDiagram.Comparand
import SyntaxDiagram.Connector
import SyntaxDiagram.Datum
import SyntaxDiagram.Diagram
import SyntaxDiagram.Element.Basic
import SyntaxDiagram.Element.Build
import SyntaxDiagram.Element.Equality
import SyntaxDiagram.Element.Printing
import SyntaxDiagram.Entry.Basic
import SyntaxDiagram.Entry.Build
import SyntaxDiagram.Fault
import SyntaxDiagram.Figure
import SyntaxDiagram.Grammar
import SyntaxDiagram.GrammarError
import SyntaxDiagram.Layout
import SyntaxDiagram.Markup.Basic
import SyntaxDiagram.Markup.Escape
import SyntaxDiagram.Measure
import SyntaxDiagram.Metrics
import SyntaxDiagram.Node
import SyntaxDiagram.Number
import SyntaxDiagram.OutputFormat
import SyntaxDiagram.Page
import SyntaxDiagram.Rounding
import SyntaxDiagram.Sealed
import SyntaxDiagram.Sheet
import SyntaxDiagram.SymbolTable
import SyntaxDiagram.Text.Blank
import SyntaxDiagram.Text.Casing
import SyntaxDiagram.Text.Lowercase
import SyntaxDiagram.Text.Printable
import SyntaxDiagram.Text.Quoted
import SyntaxDiagram.Text.Ranges
import SyntaxDiagram.Proofs.Box.Built
import SyntaxDiagram.Proofs.Geometry.Rect
import SyntaxDiagram.Proofs.Box.Tree
import SyntaxDiagram.Proofs.Box.Placing
import SyntaxDiagram.Proofs.Box.Format
import SyntaxDiagram.Proofs.Box.Shift
import SyntaxDiagram.Proofs.Geometry.Slot
import SyntaxDiagram.Proofs.Geometry.Room
import SyntaxDiagram.Proofs.Geometry.Containment
import SyntaxDiagram.Proofs.Geometry.Overlap
import SyntaxDiagram.Proofs.Box.Language
import SyntaxDiagram.Proofs.Track.Route
import SyntaxDiagram.Proofs.Track.Drawing
import SyntaxDiagram.Proofs.Element.Normal
import SyntaxDiagram.Proofs.Entry.Normal
import SyntaxDiagram.Proofs.Element.Kinds
import SyntaxDiagram.Proofs.SymbolTable
import SyntaxDiagram.Proofs.Grammar
import SyntaxDiagram.Proofs.Grammar.Built
import SyntaxDiagram.Proofs.Batch
import SyntaxDiagram.Proofs.Markup.Escape
import SyntaxDiagram.Proofs.Number
import SyntaxDiagram.Proofs.Markup.Scan
import SyntaxDiagram.Proofs.Markup.Read
import SyntaxDiagram.Proofs.Box.Captions
import SyntaxDiagram.Proofs.Figure
import SyntaxDiagram.Proofs.Page
import SyntaxDiagram.Proofs.Markup.WellFormed
import SyntaxDiagram.Proofs.Box.Tidy
import SyntaxDiagram.Proofs.Figure.WellFormed
import SyntaxDiagram.Proofs.Layout
import SyntaxDiagram.Proofs.Grammar.Rejected
import SyntaxDiagram.Proofs.Element.Equality
import SyntaxDiagram.Proofs.Grammar.Resolved
import SyntaxDiagram.Proofs.Batch.Agreement
import SyntaxDiagram.Proofs.Box.Spacing
import SyntaxDiagram.Proofs.Box.Heights
import SyntaxDiagram.Proofs.Number.Value
import SyntaxDiagram.Proofs.Track.Heading
import SyntaxDiagram.Proofs.Track.Landing
import SyntaxDiagram.Proofs.Box.Alike
import SyntaxDiagram.Proofs.Sheet
import SyntaxDiagram.Proofs.Regroup
import SyntaxDiagram.Proofs.Box.Tally
import SyntaxDiagram.Proofs.Entry.Shown
import SyntaxDiagram.Proofs.Box.Congruence
import SyntaxDiagram.Proofs.Box.Elevation
import SyntaxDiagram.Proofs.Stretch
import SyntaxDiagram.Proofs.Box.Targets
import SyntaxDiagram.Proofs.Grammar.Layout
import SyntaxDiagram.Proofs.Node
import SyntaxDiagram.Proofs.SymbolTable.History
import SyntaxDiagram.Proofs.Sealed
import SyntaxDiagram.Proofs.Page.Texts
import SyntaxDiagram.Proofs.Figure.Sizes
import SyntaxDiagram.Proofs.Text.Parts
import SyntaxDiagram.Proofs.Text.Quoted
import SyntaxDiagram.Proofs.Element.Printing
import SyntaxDiagram.Proofs.Notation.Scan
import SyntaxDiagram.Proofs.Notation.Meaning
import SyntaxDiagram.Proofs.PathData.Number
import SyntaxDiagram.Proofs.PathData.Syntax
import SyntaxDiagram.Proofs.PathData.Connector
import SyntaxDiagram.Proofs.Markup.Parts
import SyntaxDiagram.Proofs.Figure.Mirror
