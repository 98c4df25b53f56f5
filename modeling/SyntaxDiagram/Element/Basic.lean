/-!
# Grammar elements

The alternatives of a production are made of elements: literals and references at the leaves, and
sequences, alternations and quantified elements over them. Elements are immutable trees; the
builders in `SyntaxDiagram.Element.Build` keep them in normal form.
-/

namespace SyntaxDiagram

/-- What a reference names: a rule, a terminal, or a symbol imported from another grammar. -/
inductive SymbolKind where
  | rule
  | terminal
  | external
  deriving DecidableEq, Repr

/-- The word for a kind of symbol. -/
def SymbolKind.name : SymbolKind → String
  | .rule => "rule"
  | .terminal => "terminal"
  | .external => "external"

/-- The kind of symbol a word stands for. -/
def SymbolKind.ofName? (name : String) : Option SymbolKind :=
  [SymbolKind.rule, .terminal, .external].find? (·.name == name)

/-- The exact name of a kind of symbol. -/
def SymbolKind.debug : SymbolKind → String
  | .rule => "SymbolKind.RULE"
  | .terminal => "SymbolKind.TERMINAL"
  | .external => "SymbolKind.EXTERNAL"

/-- How often a quantified element may occur. A mark without a meaning is kept as it is. -/
inductive Quantifier where
  | optional
  | star
  | plus
  | unknown (mark : String)
  deriving DecidableEq, Repr

/-- The sign written after a quantified element. -/
def Quantifier.mark : Quantifier → String
  | .optional => "?"
  | .star => "*"
  | .plus => "+"
  | .unknown mark => mark

/-- The quantifier that a mark stands for. -/
def Quantifier.ofMark (mark : String) : Quantifier :=
  if mark = "?" then .optional
  else if mark = "*" then .star
  else if mark = "+" then .plus
  else .unknown mark

/-- The exact name of a quantifier; an unknown mark is shown bare. -/
def Quantifier.debug : Quantifier → String
  | .optional => "QuantifierKind.OPTIONAL"
  | .star => "QuantifierKind.STAR"
  | .plus => "QuantifierKind.PLUS"
  | .unknown mark => mark

/-- Whether a quantifier has a meaning. -/
def Quantifier.isKnown : Quantifier → Bool
  | .unknown _ => false
  | _ => true

/-- An element of a grammar. A `foreign` element comes from outside the closed set of variants:
nothing is known of it but a name. -/
inductive Element where
  | literal (text : String)
  | reference (identifier : String) (kind : Option SymbolKind)
  | sequence (items : List Element)
  | alternation (branches : List Element)
  | quantified (item : Element) (quantifier : Quantifier)
  | foreign (name : String)
  deriving Repr

namespace Element

/-- The name of the variant of an element. -/
def variantName : Element → String
  | .literal .. => "Literal"
  | .reference .. => "Reference"
  | .sequence .. => "Sequence"
  | .alternation .. => "Alternation"
  | .quantified .. => "Quantified"
  | .foreign .. => "Opaque"

/-- Literals and references are leaves. -/
def isLeaf : Element → Bool
  | .literal _ | .reference .. => true
  | _ => false

/-- The elements directly below an element. -/
def children : Element → List Element
  | .sequence items => items
  | .alternation branches => branches
  | .quantified item _ => [item]
  | _ => []

mutual

/-- All elements of a tree, each before those below it, from left to right. -/
def walk : Element → List Element
  | .sequence items => .sequence items :: walkList items
  | .alternation branches => .alternation branches :: walkList branches
  | .quantified item quantifier => .quantified item quantifier :: walk item
  | element => [element]

/-- All elements of a list of trees. -/
def walkList : List Element → List Element
  | [] => []
  | element :: rest => walk element ++ walkList rest

end

theorem walkList_eq_flatMap (elements : List Element) :
    walkList elements = elements.flatMap walk := by
  induction elements with
  | nil => rfl
  | cons element rest ih => rw [walkList, ih, List.flatMap_cons]

/-- The identifier and kind of a reference. -/
def reference? : Element → Option (String × Option SymbolKind)
  | .reference identifier kind => some (identifier, kind)
  | _ => none

/-- The references in a tree, from left to right. -/
def references (element : Element) : List (String × Option SymbolKind) :=
  element.walk.filterMap reference?

end Element

end SyntaxDiagram
