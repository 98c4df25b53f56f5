import SyntaxDiagram.Element.Basic

/-!
# Induction on elements

`Element.induction` is induction on an element with one hypothesis for all the items of a sequence,
and one for all the branches of an alternation.  What holds of all elements of a tree holds of the
one at its root and of all elements of the trees below (`Element.forall_mem_walk_sequence`).
-/

namespace SyntaxDiagram.Element

@[induction_eliminator]
theorem induction {P : Element → Prop} (literal : ∀ text, P (.literal text))
    (reference : ∀ identifier kind, P (.reference identifier kind))
    (sequence : ∀ items, (∀ item ∈ items, P item) → P (.sequence items))
    (alternation : ∀ branches, (∀ branch ∈ branches, P branch) → P (.alternation branches))
    (quantified : ∀ item quantifier, P item → P (.quantified item quantifier))
    (foreign : ∀ name, P (.foreign name)) (element : Element) : P element :=
  @Element.rec P (fun items => ∀ item ∈ items, P item) literal reference sequence alternation
    quantified foreign (fun _ h => absurd h List.not_mem_nil)
    (fun _ _ hitem hitems _ h =>
      (List.mem_cons.mp h).elim (fun h => h ▸ hitem) fun h => hitems _ h)
    element

section walk

variable {P : Element → Prop}

theorem forall_mem_walk_sequence {items : List Element} :
    (∀ x ∈ (sequence items).walk, P x) ↔
      P (.sequence items) ∧ ∀ item ∈ items, ∀ x ∈ item.walk, P x := by
  rw [walk, walkList_eq_flatMap, List.forall_mem_cons, List.forall_mem_flatMap]

theorem forall_mem_walk_alternation {branches : List Element} :
    (∀ x ∈ (alternation branches).walk, P x) ↔
      P (.alternation branches) ∧ ∀ branch ∈ branches, ∀ x ∈ branch.walk, P x := by
  rw [walk, walkList_eq_flatMap, List.forall_mem_cons, List.forall_mem_flatMap]

theorem forall_mem_walk_quantified {item : Element} {quantifier : Quantifier} :
    (∀ x ∈ (quantified item quantifier).walk, P x) ↔
      P (.quantified item quantifier) ∧ ∀ x ∈ item.walk, P x := by
  rw [walk, List.forall_mem_cons]

end walk

end SyntaxDiagram.Element
