import SyntaxDiagram.Element.Basic
import SyntaxDiagram.Text.Quoted

/-!
# Text of elements

Two texts of an element: `Element.pretty` is the grammar notation, with signs for quantifiers and
parentheses where they are needed, and `Element.debug` names every variant, so that different
elements never print alike.
-/

namespace SyntaxDiagram

namespace Element

/-! ### Grammar notation -/

/-- Whether a quantifier sign may follow an element without parentheses of its own. -/
def takesSign : Element → Bool
  | .alternation _ => true
  | element => element.isLeaf

mutual

/-- The grammar notation of an element. -/
def pretty : Element → String
  | .literal text => "'" ++ text ++ "'"
  | .reference identifier _ => identifier
  | .sequence items => " ".intercalate (prettyList items)
  | .alternation branches => "(" ++ " | ".intercalate (prettyList branches) ++ ")"
  | .quantified item quantifier =>
    if item.takesSign then pretty item ++ quantifier.mark
    else "(" ++ pretty item ++ ")" ++ quantifier.mark
  | .foreign name => "Opaque(" ++ quoted name ++ ")"

/-- The grammar notations of a list of elements. -/
def prettyList : List Element → List String
  | [] => []
  | element :: rest => pretty element :: prettyList rest

end

theorem prettyList_eq_map (elements : List Element) :
    prettyList elements = elements.map pretty := by
  induction elements with
  | nil => rfl
  | cons element rest ih => rw [prettyList, ih, List.map_cons]

/-! ### Exact text -/

mutual

/-- The exact text of an element. -/
def debug : Element → String
  | .literal text => "Literal(" ++ quoted text ++ ")"
  | .reference identifier none => "Reference(" ++ quoted identifier ++ ")"
  | .reference identifier (some kind) =>
    "Reference(" ++ quoted identifier ++ ", " ++ kind.debug ++ ")"
  | .sequence items => "Sequence(" ++ ", ".intercalate (debugList items) ++ ")"
  | .alternation branches => "Alternation(" ++ ", ".intercalate (debugList branches) ++ ")"
  | .quantified item quantifier =>
    "Quantified(" ++ debug item ++ ", " ++ quantifier.debug ++ ")"
  | .foreign name => "Opaque(" ++ quoted name ++ ")"

/-- The exact texts of a list of elements. -/
def debugList : List Element → List String
  | [] => []
  | element :: rest => debug element :: debugList rest

end

theorem debugList_eq_map (elements : List Element) : debugList elements = elements.map debug := by
  induction elements with
  | nil => rfl
  | cons element rest ih => rw [debugList, ih, List.map_cons]

example :
    (quantified (.sequence [.literal "a", .reference "b" none]) .star).pretty = "('a' b)*" := by
  decide +kernel

example : (reference "b" (some .rule)).debug = "Reference('b', SymbolKind.RULE)" := by
  decide +kernel

end Element

/-- The exact text of an alternative: its elements in parentheses, a single one with a comma. -/
def debugAlternative : List Element → String
  | [element] => "(" ++ element.debug ++ ",)"
  | elements => "(" ++ ", ".intercalate (elements.map Element.debug) ++ ")"

end SyntaxDiagram
