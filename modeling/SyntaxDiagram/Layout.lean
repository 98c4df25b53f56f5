import SyntaxDiagram.Box.Build
import SyntaxDiagram.Diagram

/-!
# Layout

The box of an element, of an alternative and of a whole production. Elements are visited from left
to right, a quantified item before its quantifier, and the first fault ends the layout.
-/

namespace SyntaxDiagram

namespace Element

/-- The track past an optional item. -/
def bypassTrack (m : Metrics) : Box Unit :=
  Box.ofItems m .bypass []

/-- The box of a quantified item. -/
def quantifiedBox (m : Metrics) (item : Box Unit) : Quantifier → Except Fault (Box Unit)
  | .optional => .ok (.stacked m [bypassTrack m] item [])
  | .plus => .ok (.repeated m item)
  | .star => .ok (.stacked m [bypassTrack m] (.repeated m item) [])
  | .unknown mark => .error (.ofCause (.unknownQuantifier mark))

mutual

/-- The box of an element. -/
def toBox (m : Metrics) (measure : Measure) : Element → Except Fault (Box Unit)
  | .literal text => Box.measured m measure .terminal text
  | .reference identifier kind => Box.measured m measure (.rule kind) identifier
  | .sequence items => do
    let items ← toBoxes m measure items
    return .ofItems m .line items
  | .alternation branches => do
    let branches ← toBoxes m measure branches
    Box.ofBranches m 0 branches
  | .quantified item quantifier => do
    let item ← toBox m measure item
    quantifiedBox m item quantifier
  | .foreign name => .error (.ofCause (.unknownElement (.foreign name)))

/-- The boxes of some elements. -/
def toBoxes (m : Metrics) (measure : Measure) : List Element → Except Fault (List (Box Unit))
  | [] => .ok []
  | element :: rest => do
    let box ← toBox m measure element
    let boxes ← toBoxes m measure rest
    return box :: boxes

end

end Element

/-- The box of some alternatives: a single one is a line, several are branches of which the first is
the main one. -/
def alternativesBox (m : Metrics) (measure : Measure) (alternatives : List (List Element)) :
    Except Fault (Box Unit) := do
  let lines ← alternatives.mapM fun alternative => do
    return Box.ofItems m .line (← Element.toBoxes m measure alternative)
  match lines with
  | [] => return .ofItems m .line []
  | [line] => return line
  | first :: rest => return .stacked m [] first rest

/-- A fault in the layout of an entry. That a label cannot be measured concerns the entry. -/
def Fault.inEntry (entry : Entry) (fault : Fault) : Fault :=
  fault.mapGrammar fun error =>
    if error.cause.errorClass = .unmeasurable then error.withIdentifier entry.identifier else error

/-- The drawing of an entry, with labels as wide as a measure says. -/
def Entry.layout (m : Metrics) (measure : Measure) (entry : Entry) : Except Fault Drawing := do
  let root ← (alternativesBox m measure entry.alternatives).mapError (·.inEntry entry)
  return (Diagram.ofBox m entry root Diagram.standardPadding).draw m

end SyntaxDiagram
