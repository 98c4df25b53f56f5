import SyntaxDiagram.Node

/-!
# Building entries

An entry is built from items and checked: it has an identifier, every item is an element, and a
terminal holds leaves only. Without any alternative it has the empty one.
-/

namespace SyntaxDiagram

namespace Entry

/-- The elements of each alternative; none at all is the same as a single empty alternative. -/
def elementsOf (alternatives : List (List Item)) : Except GrammarError (List (List Element)) :=
  match alternatives with
  | [] => .ok [[]]
  | alternatives => alternatives.mapM (·.mapM Item.toElement)

/-- An entry from the items of its alternatives. The empty identifier counts as none. -/
def build (kind : EntryKind) (identifier documentation : String)
    (alternatives : List (List Item)) : Except GrammarError Entry := do
  if identifier.isEmpty then throw (.of .missingIdentifier)
  let alternatives ←
    (elementsOf alternatives).mapError fun error => error.withIdentifier identifier
  unless kind.isRule do
    if let some element := alternatives.flatten.find? (!·.isLeaf) then
      throw (.about identifier (.compositeInTerminal element))
  return ⟨kind, identifier, documentation, alternatives⟩

end Entry

/-- A description of an entry before anything about it is checked. -/
structure EntryNode where
  kind : EntryKind
  identifier : String
  documentation : String
  alternatives : List (List Node)
  deriving Repr

/-- The entry a description stands for. All its nodes are read before the entry itself is built. -/
def EntryNode.build (node : EntryNode) : Except GrammarError Entry := do
  let alternatives ← node.alternatives.mapM (·.mapM Node.toItem)
  Entry.build node.kind node.identifier node.documentation alternatives

end SyntaxDiagram
