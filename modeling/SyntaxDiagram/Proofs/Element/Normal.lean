import SyntaxDiagram.Node
import SyntaxDiagram.Proofs.Element.Induction
import SyntaxDiagram.Proofs.Except

/-!
# Elements in normal form

Everything that the builders return is in normal form (`Node.normal_of_toItem`), and an element in
normal form is what the builders make of its parts (`ofSequence_elements`, `ofAlternation_elements`,
`quantify_of_settled`), so building one anew does not change its shape.
-/

namespace SyntaxDiagram

namespace Element

/-! ### Normal form -/

/-- Sequences and alternations are not empty, every branch of an alternation is a sequence, and a
quantifier is not absorbed by the one directly below it. -/
inductive Normal : Element → Prop
  | literal (text : String) : Normal (.literal text)
  | reference (identifier : String) (kind : Option SymbolKind) :
    Normal (.reference identifier kind)
  | sequence {items : List Element} (nonempty : items ≠ [])
    (normal : ∀ item ∈ items, Normal item) : Normal (.sequence items)
  | alternation {branches : List Element} (nonempty : branches ≠ [])
    (sequences : ∀ branch ∈ branches, ∃ items, branch = .sequence items)
    (normal : ∀ branch ∈ branches, Normal branch) : Normal (.alternation branches)
  | quantified {item : Element} {quantifier : Quantifier}
    (settled : ∀ inner quantifier', item = .quantified inner quantifier' →
      quantifier.absorbs quantifier' = false)
    (normal : Normal item) : Normal (.quantified item quantifier)
  | foreign (name : String) : Normal (.foreign name)

/-- All that is in an element in normal form is in normal form. -/
theorem Normal.of_mem_walk {element x : Element} (h : element.Normal) (hx : x ∈ element.walk) :
    x.Normal := by
  induction h with
  | literal text =>
    obtain rfl := List.mem_singleton.mp hx
    exact .literal text
  | reference identifier kind =>
    obtain rfl := List.mem_singleton.mp hx
    exact .reference identifier kind
  | sequence nonempty normal ih =>
    rw [walk, walkList_eq_flatMap, List.mem_cons, List.mem_flatMap] at hx
    rcases hx with rfl | ⟨item, hitem, hx⟩
    · exact .sequence nonempty normal
    · exact ih item hitem hx
  | alternation nonempty sequences normal ih =>
    rw [walk, walkList_eq_flatMap, List.mem_cons, List.mem_flatMap] at hx
    rcases hx with rfl | ⟨branch, hbranch, hx⟩
    · exact .alternation nonempty sequences normal
    · exact ih branch hbranch hx
  | quantified settled normal ih =>
    rw [walk, List.mem_cons] at hx
    rcases hx with rfl | hx
    · exact .quantified settled normal
    · exact ih hx
  | foreign name =>
    obtain rfl := List.mem_singleton.mp hx
    exact .foreign name

/-! ### Building from elements -/

/-- A quantifier is put on top of an item whose own quantifier it does not absorb. -/
theorem quantify_of_settled {item : Element} {quantifier : Quantifier}
    (h : ∀ inner quantifier', item = .quantified inner quantifier' →
      quantifier.absorbs quantifier' = false) :
    item.quantify quantifier = .quantified item quantifier := by
  cases item with
  | quantified inner quantifier' => rw [quantify, h inner quantifier' rfl, if_neg (by decide)]
  | _ => rfl

/-- A quantifier is absorbed by an equal one, which stands for both then, or it is put on top. -/
theorem quantify_eq_self_or_settled (element : Element) (quantifier : Quantifier) :
    element.quantify quantifier = element ∨
      ∀ inner quantifier', element = .quantified inner quantifier' →
        quantifier.absorbs quantifier' = false := by
  by_cases hsettled : ∀ inner quantifier', element = .quantified inner quantifier' →
      quantifier.absorbs quantifier' = false
  · exact Or.inr hsettled
  · push Not at hsettled
    obtain ⟨inner, quantifier', rfl, habsorbs⟩ := hsettled
    rw [ne_eq, Bool.not_eq_false] at habsorbs
    have heq : quantifier = quantifier' := by
      simp only [Quantifier.absorbs, Bool.and_eq_true, beq_iff_eq] at habsorbs
      exact habsorbs.1
    rw [quantify, if_pos habsorbs, heq]
    exact Or.inl rfl

theorem mapM_toElement (elements : List Element) :
    (elements.map Item.element).mapM Item.toElement = .ok elements := by
  rw [List.mapM_map]
  exact (mapM_eq_ok_map fun _ _ => rfl).trans (by rw [List.map_id'])

/-- A sequence is built from its own items. -/
theorem ofSequence_elements {items : List Element} (h : items ≠ []) :
    ofSequence (items.map .element) = .ok (.sequence items) := by
  obtain ⟨first, rest, rfl⟩ := List.exists_cons_of_ne_nil h
  have hitems := mapM_toElement (first :: rest)
  rw [List.map_cons] at hitems ⊢
  rw [ofSequence, hitems]
  · rfl
  · simp

/-- An alternation is built from its own branches, which need no wrapping any more. -/
theorem ofAlternation_elements {branches : List Element} (h : branches ≠ [])
    (hsequences : ∀ branch ∈ branches, ∃ items, branch = .sequence items) :
    ofAlternation (branches.map .element) = .ok (.alternation branches) := by
  have hbranches : (branches.map Item.element).mapM Item.toBranch = .ok branches := by
    rw [List.mapM_map]
    refine (mapM_eq_ok_map fun branch hbranch => ?_).trans (by rw [List.map_id'])
    obtain ⟨items, rfl⟩ := hsequences branch hbranch
    rfl
  obtain ⟨first, rest, rfl⟩ := List.exists_cons_of_ne_nil h
  rw [List.map_cons] at hbranches ⊢
  rw [ofAlternation, hbranches]
  · rfl
  · simp

/-- A sequence that is built has the elements of all its items, and at least one. -/
theorem exists_of_ofSequence {items : List Item} {element : Element}
    (h : ofSequence items = .ok element) :
    ∃ elements, items.mapM Item.toElement = .ok elements ∧ elements ≠ [] ∧
      element = .sequence elements := by
  cases items with
  | nil => exact absurd h (by simp [ofSequence])
  | cons first rest =>
    obtain ⟨elements, helements, rfl⟩ := map_eq_ok_iff.mp h
    exact ⟨elements, helements, ne_nil_of_mapM_eq_ok helements (List.cons_ne_nil _ _), rfl⟩

/-- An alternation that is built has the branches of all its items, and at least one. -/
theorem exists_of_ofAlternation {items : List Item} {element : Element}
    (h : ofAlternation items = .ok element) :
    ∃ branches, items.mapM Item.toBranch = .ok branches ∧ branches ≠ [] ∧
      element = .alternation branches := by
  cases items with
  | nil => exact absurd h (by simp [ofAlternation])
  | cons first rest =>
    obtain ⟨branches, hbranches, rfl⟩ := map_eq_ok_iff.mp h
    exact ⟨branches, hbranches, ne_nil_of_mapM_eq_ok hbranches (List.cons_ne_nil _ _), rfl⟩

/-! ### Builders return normal forms -/

/-- Quantifying keeps normal form, as a quantifier is never put on one it absorbs. -/
theorem Normal.quantify {element : Element} (h : element.Normal) (quantifier : Quantifier) :
    (element.quantify quantifier).Normal := by
  rcases element.quantify_eq_self_or_settled quantifier with hself | hsettled
  · rwa [hself]
  · rw [quantify_of_settled hsettled]
    exact .quantified hsettled h

end Element

/-- An item that is an element is one in normal form. -/
def Item.Normal (item : Item) : Prop :=
  ∀ element, item.toElement = .ok element → element.Normal

/-- An element in normal form is an item in normal form. -/
theorem Element.Normal.item {element : Element} (h : element.Normal) :
    (Item.element element).Normal := by
  intro element' h'
  obtain rfl := Except.ok.inj h'
  exact h

namespace Element

/-- Sequences are built in normal form. -/
theorem normal_of_ofSequence {items : List Item} (hitems : ∀ item ∈ items, item.Normal)
    {element : Element} (h : ofSequence items = .ok element) : element.Normal := by
  obtain ⟨elements, helements, hnonempty, rfl⟩ := exists_of_ofSequence h
  refine .sequence hnonempty fun element hmem => ?_
  obtain ⟨item, hitem, h⟩ := exists_of_mem_of_mapM_eq_ok helements hmem
  exact hitems item hitem element h

/-- What is made a branch is a sequence in normal form. -/
theorem normal_of_toBranch {item : Item} (hitem : item.Normal) {branch : Element}
    (h : item.toBranch = .ok branch) : (∃ items, branch = .sequence items) ∧ branch.Normal := by
  obtain ⟨element, helement, rfl⟩ := map_eq_ok_iff.mp h
  have hnormal := hitem element helement
  -- what is not a sequence yet becomes one with a single item
  cases element with
  | sequence items => exact ⟨⟨items, rfl⟩, hnormal⟩
  | _ => exact ⟨⟨_, rfl⟩, .sequence (List.cons_ne_nil _ _) (by simpa using hnormal)⟩

/-- Alternations are built in normal form. -/
theorem normal_of_ofAlternation {items : List Item} (hitems : ∀ item ∈ items, item.Normal)
    {element : Element} (h : ofAlternation items = .ok element) : element.Normal := by
  obtain ⟨branches, hbranches, hnonempty, rfl⟩ := exists_of_ofAlternation h
  have hbranch : ∀ branch ∈ branches, (∃ items, branch = .sequence items) ∧ branch.Normal := by
    intro branch hmem
    obtain ⟨item, hitem, h⟩ := exists_of_mem_of_mapM_eq_ok hbranches hmem
    exact normal_of_toBranch (hitems item hitem) h
  exact .alternation hnonempty (fun branch hmem => (hbranch branch hmem).1) fun branch hmem =>
    (hbranch branch hmem).2

/-- Quantified elements are built in normal form. -/
theorem normal_of_ofQuantified {item : Item} (hitem : item.Normal) {quantifier : Quantifier}
    {element : Element} (h : ofQuantified item quantifier = .ok element) : element.Normal := by
  obtain ⟨inner, hinner, rfl⟩ := map_eq_ok_iff.mp h
  exact (hitem inner hinner).quantify quantifier

end Element

namespace Node

@[induction_eliminator]
theorem induction {P : Node → Prop} (datum : ∀ value, P (.datum value))
    (literal : ∀ text, P (.literal text))
    (reference : ∀ identifier kind, P (.reference identifier kind))
    (sequence : ∀ items, (∀ item ∈ items, P item) → P (.sequence items))
    (alternation : ∀ branches, (∀ branch ∈ branches, P branch) → P (.alternation branches))
    (quantified : ∀ item quantifier, P item → P (.quantified item quantifier))
    (foreign : ∀ name, P (.foreign name)) (node : Node) : P node :=
  @Node.rec P (fun items => ∀ item ∈ items, P item) datum literal reference sequence alternation
    quantified foreign (fun _ h => absurd h List.not_mem_nil)
    (fun _ _ hitem hitems _ h =>
      (List.mem_cons.mp h).elim (fun h => h ▸ hitem) fun h => hitems _ h)
    node

theorem toItems_eq_mapM (nodes : List Node) : toItems nodes = nodes.mapM toItem := by
  induction nodes with
  | nil => rfl
  | cons node rest ih => rw [toItems, List.mapM_cons, ih]

/-- Every node comes to an item in normal form, by induction over the node. -/
theorem normal_of_toItem {node : Node} {item : Item} (h : node.toItem = .ok item) :
    item.Normal := by
  induction node generalizing item with
  | datum value =>
    obtain rfl := Except.ok.inj h
    intro element h
    -- of the plain values only a text is an element
    cases value with
    | text text =>
      obtain rfl := Except.ok.inj h
      exact .literal text
    | _ => exact absurd h (by simp [Item.toElement])
  | literal text =>
    obtain rfl := Except.ok.inj h
    exact (Element.Normal.literal text).item
  | reference identifier kind =>
    obtain rfl := Except.ok.inj h
    exact (Element.Normal.reference identifier kind).item
  | sequence items ih =>
    rw [toItem, toItems_eq_mapM, bind_eq_ok_iff] at h
    obtain ⟨items', hitems, h⟩ := h
    rw [bind_eq_ok_iff] at h
    obtain ⟨element, helement, h⟩ := h
    obtain rfl := pure_eq_ok_iff.mp h
    -- the builder keeps what the induction says of the items
    refine (Element.normal_of_ofSequence (fun item hmem => ?_) helement).item
    obtain ⟨node, hnode, h⟩ := exists_of_mem_of_mapM_eq_ok hitems hmem
    exact ih node hnode h
  | alternation branches ih =>
    rw [toItem, toItems_eq_mapM, bind_eq_ok_iff] at h
    obtain ⟨items', hitems, h⟩ := h
    rw [bind_eq_ok_iff] at h
    obtain ⟨element, helement, h⟩ := h
    obtain rfl := pure_eq_ok_iff.mp h
    refine (Element.normal_of_ofAlternation (fun item hmem => ?_) helement).item
    obtain ⟨node, hnode, h⟩ := exists_of_mem_of_mapM_eq_ok hitems hmem
    exact ih node hnode h
  | quantified inner quantifier ih =>
    rw [toItem, bind_eq_ok_iff] at h
    obtain ⟨item', hitem, h⟩ := h
    rw [bind_eq_ok_iff] at h
    obtain ⟨element, helement, h⟩ := h
    obtain rfl := pure_eq_ok_iff.mp h
    exact (Element.normal_of_ofQuantified (ih hitem) helement).item
  | foreign name =>
    obtain rfl := Except.ok.inj h
    exact (Element.Normal.foreign name).item

end Node

end SyntaxDiagram
