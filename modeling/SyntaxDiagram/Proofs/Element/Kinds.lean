import SyntaxDiagram.Proofs.Element.Normal

/-!
# Kinds of references

`Element.withKinds` changes the kinds of the references in an element and nothing else.  It keeps
elements in normal form (`Element.Normal.withKinds`).
-/

namespace SyntaxDiagram.Element

mutual

/-- The same element, with kinds of references that depend on the identifiers alone. -/
def withKinds (kind : String → SymbolKind) : Element → Element
  | .literal text => .literal text
  | .reference identifier _ => .reference identifier (some (kind identifier))
  | .sequence items => .sequence (withKindsList kind items)
  | .alternation branches => .alternation (withKindsList kind branches)
  | .quantified item quantifier => .quantified (withKinds kind item) quantifier
  | .foreign name => .foreign name

/-- The same elements, with kinds of references that depend on the identifiers alone. -/
def withKindsList (kind : String → SymbolKind) : List Element → List Element
  | [] => []
  | element :: rest => withKinds kind element :: withKindsList kind rest

end

variable {kind : String → SymbolKind}

theorem withKindsList_eq_map (elements : List Element) :
    withKindsList kind elements = elements.map (withKinds kind) := by
  induction elements with
  | nil => rfl
  | cons element rest ih => rw [withKindsList, ih, List.map_cons]

@[simp]
theorem isLeaf_withKinds (element : Element) :
    (element.withKinds kind).isLeaf = element.isLeaf := by
  cases element <;> rfl

/-- The kinds that were there before make no difference. -/
theorem withKinds_withKinds (kind' : String → SymbolKind) (element : Element) :
    (element.withKinds kind).withKinds kind' = element.withKinds kind' := by
  induction element with
  | sequence items ih =>
    simp only [withKinds, withKindsList_eq_map, List.map_map]
    exact congrArg sequence (List.map_congr_left ih)
  | alternation branches ih =>
    simp only [withKinds, withKindsList_eq_map, List.map_map]
    exact congrArg alternation (List.map_congr_left ih)
  | quantified item quantifier ih => rw [withKinds, withKinds, ih, withKinds]
  | _ => rfl

theorem settled_withKinds {item : Element} {quantifier : Quantifier}
    (h : ∀ inner quantifier', item = .quantified inner quantifier' →
      quantifier.absorbs quantifier' = false) :
    ∀ inner quantifier', item.withKinds kind = .quantified inner quantifier' →
      quantifier.absorbs quantifier' = false := by
  rintro inner quantifier' hitem
  cases item with
  | quantified inner' quantifier'' =>
    obtain ⟨-, rfl⟩ := Element.quantified.inj hitem
    exact h inner' quantifier'' rfl
  | _ => exact absurd hitem (by simp [withKinds])

theorem sequences_withKinds {branches : List Element}
    (h : ∀ branch ∈ branches, ∃ items, branch = .sequence items) :
    ∀ branch ∈ branches.map (withKinds kind), ∃ items, branch = .sequence items := by
  rw [List.forall_mem_map]
  intro branch hbranch
  obtain ⟨items, rfl⟩ := h branch hbranch
  exact ⟨_, withKinds.eq_3 ..⟩

/-- Other kinds of references leave an element in normal form. -/
theorem Normal.withKinds {element : Element} (h : element.Normal) :
    (element.withKinds kind).Normal := by
  induction h with
  | literal text => exact .literal text
  | reference identifier kind' => exact .reference identifier _
  -- no list gets shorter, and no quantifier or branch changes
  | sequence nonempty _ ih =>
    rw [Element.withKinds, withKindsList_eq_map]
    exact .sequence (by simpa using nonempty) (List.forall_mem_map.mpr ih)
  | alternation nonempty sequences _ ih =>
    rw [Element.withKinds, withKindsList_eq_map]
    exact .alternation (by simpa using nonempty) (sequences_withKinds sequences)
      (List.forall_mem_map.mpr ih)
  | quantified settled _ ih =>
    rw [Element.withKinds]
    exact .quantified (settled_withKinds settled) ih
  | foreign name => exact .foreign name

end SyntaxDiagram.Element
