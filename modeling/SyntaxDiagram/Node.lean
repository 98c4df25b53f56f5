import SyntaxDiagram.Element.Build

/-!
# Descriptions of elements

A `Node` describes an element before anything about it is checked. Building goes from left to right
and from the inside out, and stops at the first thing that is wrong.
-/

namespace SyntaxDiagram

/-- A description of an element; a plain value describes itself. -/
inductive Node where
  | datum (value : Datum)
  | literal (text : String)
  | reference (identifier : String) (kind : Option SymbolKind)
  | sequence (items : List Node)
  | alternation (branches : List Node)
  | quantified (item : Node) (quantifier : Quantifier)
  | foreign (name : String)
  deriving Repr

namespace Node

mutual

/-- The item a node describes. The items of a node are all read before the node itself is built. -/
def toItem : Node → Except GrammarError Item
  | .datum value => .ok (.datum value)
  | .literal text => .ok (.element (.literal text))
  | .reference identifier kind => .ok (.element (.reference identifier kind))
  | .sequence items => do
    let items ← toItems items
    return .element (← Element.ofSequence items)
  | .alternation branches => do
    let branches ← toItems branches
    return .element (← Element.ofAlternation branches)
  | .quantified item quantifier => do
    let item ← toItem item
    return .element (← Element.ofQuantified item quantifier)
  | .foreign name => .ok (.element (.foreign name))

/-- The items that some nodes describe. -/
def toItems : List Node → Except GrammarError (List Item)
  | [] => .ok []
  | node :: rest => do
    let item ← toItem node
    let items ← toItems rest
    return item :: items

end

/-- The element a node describes. -/
def build (node : Node) : Except GrammarError Element := do
  (← node.toItem).toElement

example : ((Node.quantified (.quantified (.datum (.text "a")) .star) .star).build.map
    Element.debug).toOption = some "Quantified(Literal('a'), QuantifierKind.STAR)" := by
  decide +kernel

end Node

end SyntaxDiagram
