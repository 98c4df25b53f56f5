import SyntaxDiagram.GrammarError

/-!
# Building elements

Builders take items as they are given, elements or plain values, and return elements in normal form:
a text becomes a literal, sequences and alternations are not empty, every branch of an alternation
is a sequence, and a quantifier does not repeat the one directly below it.
-/

namespace SyntaxDiagram

/-- What is given where an element is expected: an element or some plain value. -/
inductive Item where
  | element (value : Element)
  | datum (value : Datum)
  deriving Repr

namespace Item

/-- The element an item stands for. Of the plain values only a text stands for one. -/
def toElement : Item → Except GrammarError Element
  | .element value => .ok value
  | .datum (.text text) => .ok (.literal text)
  | .datum value => .error (.of (.notElement value))

/-- The branch of an alternation that an item stands for: a sequence as it is, anything else as a
sequence of one element. -/
def toBranch (item : Item) : Except GrammarError Element :=
  item.toElement.map fun
    | .sequence items => .sequence items
    | single => .sequence [single]

end Item

/-- Whether a quantifier directly above an equal one is absorbed by it. A mark without a meaning
has to be a single character of the first 256, or empty, to be recognised as the same one. -/
def Quantifier.absorbs (outer inner : Quantifier) : Bool :=
  outer == inner &&
    match outer with
    | .unknown mark => mark.length ≤ 1 && mark.toList.all (·.toNat < 0x100)
    | _ => true

namespace Element

/-- The sequence of some items. -/
def ofSequence : List Item → Except GrammarError Element
  | [] => .error (.of .emptySequence)
  | items => (items.mapM Item.toElement).map .sequence

/-- The alternation between some items. -/
def ofAlternation : List Item → Except GrammarError Element
  | [] => .error (.of .emptyAlternation)
  | items => (items.mapM Item.toBranch).map .alternation

/-- An element under a quantifier. -/
def quantify (element : Element) (quantifier : Quantifier) : Element :=
  match element with
  | .quantified inner innerQuantifier =>
    if quantifier.absorbs innerQuantifier then .quantified inner quantifier
    else .quantified element quantifier
  | _ => .quantified element quantifier

/-- An item under a quantifier. -/
def ofQuantified (item : Item) (quantifier : Quantifier) : Except GrammarError Element :=
  item.toElement.map (·.quantify quantifier)

end Element

end SyntaxDiagram
