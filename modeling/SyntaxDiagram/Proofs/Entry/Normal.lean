import SyntaxDiagram.Entry.Build
import SyntaxDiagram.Proofs.Element.Normal

/-!
# Entries in normal form

An entry that was built from a description is in normal form (`EntryNode.normal_of_build`), and one
in normal form is built anew from its own elements without a change (`Entry.build_elements`).
-/

namespace SyntaxDiagram

namespace Entry

/-- The entry has an identifier, an alternative and elements in normal form, leaves only if it is a
terminal. -/
structure Normal (entry : Entry) : Prop where
  identifier_nonempty : entry.identifier.isEmpty = false
  alternatives_nonempty : entry.alternatives ≠ []
  normal : ∀ alternative ∈ entry.alternatives, ∀ element ∈ alternative, element.Normal
  leaves : entry.kind.isRule = false →
    ∀ alternative ∈ entry.alternatives, ∀ element ∈ alternative, element.isLeaf

theorem build_eq_ok_iff {kind : EntryKind} {identifier documentation : String}
    {alternatives : List (List Item)} {entry : Entry} :
    build kind identifier documentation alternatives = .ok entry ↔
      identifier.isEmpty = false ∧ ∃ elements, elementsOf alternatives = .ok elements ∧
        (kind.isRule = false → ∀ element ∈ elements.flatten, element.isLeaf) ∧
        entry = ⟨kind, identifier, documentation, elements⟩ := by
  unfold build
  cases hempty : identifier.isEmpty with
  | true =>
    simp only [if_true]
    rw [bind_eq_ok_iff]
    simp only [throw_ne_ok, false_and, exists_false, Bool.true_eq_false]
  | false =>
    simp only [Bool.false_eq_true, if_false, bind_eq_ok_iff, mapError_eq_ok_iff, true_and]
    refine exists_congr fun elements => and_congr_right fun _ => ?_
    cases hrule : kind.isRule with
    | true =>
      simp only [if_true, pure_eq_ok_iff, Bool.true_eq_false, false_imp_iff, true_and]
      exact eq_comm
    | false =>
      -- the terminal is turned down for the first element that is not a leaf, if there is one
      cases hfind : elements.flatten.find? (!·.isLeaf) with
      | none =>
        have hleaves : ∀ element ∈ elements.flatten, element.isLeaf := fun element hmem => by
          simpa using List.find?_eq_none.mp hfind element hmem
        simp only [Bool.false_eq_true, if_false, pure_eq_ok_iff, true_imp_iff]
        exact ⟨fun h => ⟨hleaves, h.symm⟩, fun h => h.2.symm⟩
      | some element =>
        have hleaf := List.find?_some hfind
        have hmem := List.mem_of_find?_eq_some hfind
        simp only [Bool.false_eq_true, if_false, bind_eq_ok_iff, throw_ne_ok, false_and,
          exists_false, true_imp_iff, false_iff, not_and]
        intro hleaves
        simp [hleaves element hmem] at hleaf

theorem elementsOf_elements {alternatives : List (List Element)} (h : alternatives ≠ []) :
    elementsOf (alternatives.map (·.map .element)) = .ok alternatives := by
  have hmapM : (alternatives.map (·.map Item.element)).mapM (·.mapM Item.toElement) =
      .ok alternatives := by
    rw [List.mapM_map]
    exact mapM_eq_ok_self fun alternative _ => Element.mapM_toElement alternative
  obtain ⟨first, rest, rfl⟩ := List.exists_cons_of_ne_nil h
  rw [List.map_cons] at hmapM ⊢
  exact hmapM

/-- An entry in normal form is what its own elements build. -/
theorem build_elements {entry : Entry} (h : entry.Normal) :
    build entry.kind entry.identifier entry.documentation
      (entry.alternatives.map (·.map .element)) = .ok entry := by
  refine build_eq_ok_iff.mpr ⟨h.identifier_nonempty, _,
    elementsOf_elements h.alternatives_nonempty, ?_, rfl⟩
  intro hrule element hmem
  obtain ⟨alternative, halternative, hmem⟩ := List.mem_flatten.mp hmem
  exact h.leaves hrule alternative halternative element hmem

/-- Without any alternatives an entry gets an empty one. -/
theorem ne_nil_of_elementsOf {alternatives : List (List Item)} {elements : List (List Element)}
    (h : elementsOf alternatives = .ok elements) : elements ≠ [] := by
  cases alternatives with
  | nil =>
    obtain rfl := Except.ok.inj h
    exact List.cons_ne_nil _ _
  | cons first rest => exact ne_nil_of_mapM_eq_ok h (List.cons_ne_nil _ _)

/-- What holds of the element that each item stands for holds of all elements. -/
theorem forall_mem_of_elementsOf {P : Element → Prop} {alternatives : List (List Item)}
    {elements : List (List Element)} (h : elementsOf alternatives = .ok elements)
    (hP : ∀ alternative ∈ alternatives, ∀ item ∈ alternative, ∀ element,
      item.toElement = .ok element → P element) :
    ∀ alternative ∈ elements, ∀ element ∈ alternative, P element := by
  cases alternatives with
  | nil =>
    obtain rfl := Except.ok.inj h
    simp
  | cons first rest =>
    exact forall_mem_of_mapM_eq_ok h fun items hitems _ helements =>
      forall_mem_of_mapM_eq_ok helements (hP items hitems)

theorem normal_of_build {kind : EntryKind} {identifier documentation : String}
    {alternatives : List (List Item)} {entry : Entry}
    (hitems : ∀ alternative ∈ alternatives, ∀ item ∈ alternative, item.Normal)
    (h : build kind identifier documentation alternatives = .ok entry) : entry.Normal := by
  obtain ⟨hidentifier, elements, helements, hleaves, rfl⟩ := build_eq_ok_iff.mp h
  exact ⟨hidentifier, ne_nil_of_elementsOf helements, forall_mem_of_elementsOf helements hitems,
    fun hrule alternative halternative element hmem =>
      hleaves hrule element (List.mem_flatten_of_mem halternative hmem)⟩

end Entry

theorem EntryNode.normal_of_build {node : EntryNode} {entry : Entry} (h : node.build = .ok entry) :
    entry.Normal := by
  rw [build, bind_eq_ok_iff] at h
  obtain ⟨alternatives, halternatives, h⟩ := h
  refine Entry.normal_of_build (fun alternative hmem item hitem => ?_) h
  obtain ⟨nodes, -, hnodes⟩ := exists_of_mem_of_mapM_eq_ok halternatives hmem
  obtain ⟨node, -, hnode⟩ := exists_of_mem_of_mapM_eq_ok hnodes hitem
  exact Node.normal_of_toItem hnode

end SyntaxDiagram
