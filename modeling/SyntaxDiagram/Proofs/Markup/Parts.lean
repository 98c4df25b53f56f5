import SyntaxDiagram.Markup.Basic
import Mathlib.Data.List.Basic

/-!
# Parts of a markup tree

The elements of a tree in document order, each with the link around it (`Markup.parts`), the text
inside of a tree (`Markup.content`), and how its groups are nested (`Markup.groups`), whatever
stands between a group and the ones inside of it.
-/

namespace SyntaxDiagram

namespace Markup

/-! ### Elements -/

/-- An element of a tree, with the target of the innermost link around it. -/
structure Part where
  link : Option AttributeValue
  tag : String
  attributes : List (String × AttributeValue)
  children : List Markup

mutual

/-- The elements of a tree inside of some link or of none, each in front of those in it. -/
def partsIn (link : Option AttributeValue) : Markup → List Part
  | .element tag attributes children =>
    ⟨link, tag, attributes, children⟩ ::
      partsInList (if tag = "a" then attributes.lookup "xlink:href" else link) children
  | .text _ => []
  | .style _ => []

/-- The elements of some trees in a row. -/
def partsInList (link : Option AttributeValue) : List Markup → List Part
  | [] => []
  | tree :: rest => partsIn link tree ++ partsInList link rest

end

/-- The elements of a tree in document order. -/
def parts (tree : Markup) : List Part :=
  tree.partsIn none

theorem partsInList_eq_flatMap (link : Option AttributeValue) (trees : List Markup) :
    partsInList link trees = trees.flatMap (partsIn link) := by
  induction trees with
  | nil => rfl
  | cons tree rest ih => rw [partsInList, ih, List.flatMap_cons]

/-- What is found in trees in a row is found in each of them in turn. -/
theorem filterMap_partsInList {β : Type} (f : Part → Option β) (link : Option AttributeValue)
    (trees : List Markup) : (partsInList link trees).filterMap f =
      trees.flatMap fun tree => (tree.partsIn link).filterMap f := by
  rw [partsInList_eq_flatMap, List.filterMap_flatMap]

/-- What is found in an element that is no link and not found itself is what is found inside of
it. -/
theorem filterMap_partsIn_element {β : Type} {f : Part → Option β} {link : Option AttributeValue}
    {tag : String} {attributes : List (String × AttributeValue)} {children : List Markup}
    (htag : tag ≠ "a") (hf : f ⟨link, tag, attributes, children⟩ = none) :
    ((element tag attributes children).partsIn link).filterMap f =
      children.flatMap fun child => (child.partsIn link).filterMap f := by
  rw [partsIn, if_neg htag, List.filterMap_cons_none hf, filterMap_partsInList]

/-! ### Texts -/

mutual

/-- The text inside of a tree. -/
def content : Markup → String
  | .element _ _ children => contentList children
  | .text value => value
  | .style _ => ""

/-- The text inside of some trees in a row. -/
def contentList : List Markup → String
  | [] => ""
  | tree :: rest => content tree ++ contentList rest

end

/-- The text inside of an element is read back, also where it is empty. -/
theorem contentList_withText (text : String) :
    contentList (if text.isEmpty then [] else [.text text]) = text := by
  split
  · rename_i hempty
    exact (String.isEmpty_iff.mp hempty).symm
  · exact String.append_empty

/-! ### Groups -/

/-- A group and the groups inside of it, each with its class. -/
inductive Nest where
  | node (name : Option AttributeValue) (inner : List Nest)

mutual

/-- The groups in a tree that are in no other one. -/
def groups : Markup → List Nest
  | .element tag attributes children =>
    if tag = "g" then [.node (attributes.lookup "class") (groupsList children)]
    else groupsList children
  | .text _ => []
  | .style _ => []

/-- The groups in some trees in a row. -/
def groupsList : List Markup → List Nest
  | [] => []
  | tree :: rest => groups tree ++ groupsList rest

end

theorem groupsList_eq_flatMap (trees : List Markup) : groupsList trees = trees.flatMap groups := by
  induction trees with
  | nil => rfl
  | cons tree rest ih => rw [groupsList, ih, List.flatMap_cons]

/-- A group holds the groups inside of it under its own class. -/
theorem groups_group (attributes : List (String × AttributeValue)) (children : List Markup) :
    (element "g" attributes children).groups =
      [.node (attributes.lookup "class") (children.flatMap groups)] := by
  rw [groups, if_pos rfl, groupsList_eq_flatMap]

/-- Any other element passes on the groups inside of it. -/
theorem groups_of_ne {tag : String} (htag : tag ≠ "g")
    (attributes : List (String × AttributeValue)) (children : List Markup) :
    (element tag attributes children).groups = children.flatMap groups := by
  rw [groups, if_neg htag, groupsList_eq_flatMap]

end Markup

end SyntaxDiagram
