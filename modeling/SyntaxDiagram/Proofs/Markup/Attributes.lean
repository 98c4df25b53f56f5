import SyntaxDiagram.Proofs.Markup.Texts

/-!
# Attributes of written trees

What is read from the tags of a text, by the names of attributes, is what the attributes of the tree
stand for (`Markup.attributeTexts_pieces_element`), in whatever order they are written.  A tree has
a text iff all of its attributes have (`Markup.isWritten_element_iff`).
-/

namespace SyntaxDiagram

namespace AttributeValue

/-- Whether a value has a text. A number may be too great for that. -/
def IsWritten (value : AttributeValue) : Prop :=
  ∃ text, value.write = .ok text

theorem isWritten_text (value : String) : (text value).IsWritten :=
  ⟨_, rfl⟩

theorem exists_of_isWritten_number {value : Number} (h : (number value).IsWritten) :
    ∃ text, value.brief = .ok text ∧ (number value).shown = text := by
  obtain ⟨text, htext⟩ := h
  refine ⟨text, mapError_eq_ok_iff.mp htext, ?_⟩
  rw [shown, htext]
  rfl

end AttributeValue

namespace Markup

/-! ### Looking up -/

/-- An attribute that is moved past others with smaller names is still found first. -/
theorem lookup_insertAttribute (name : String) (field : String × AttributeValue)
    (fields : List (String × AttributeValue)) :
    (insertAttribute field fields).lookup name = (field :: fields).lookup name := by
  induction fields with
  | nil => rfl
  | cons first rest ih =>
    rw [insertAttribute]
    split_ifs with hlt
    · rw [List.lookup_cons, ih, List.lookup_cons, List.lookup_cons, List.lookup_cons]
      by_cases hname : name = field.1
      · have hne : (name == first.1) = false := beq_false_of_ne (hname ▸ hlt.ne')
        rw [hne]
      · rw [beq_false_of_ne hname]
    · rfl

/-- Sorting attributes keeps what is found under each name. -/
theorem lookup_sortAttributes (name : String) (attributes : List (String × AttributeValue)) :
    (sortAttributes attributes).lookup name = attributes.lookup name := by
  induction attributes with
  | nil => rfl
  | cons field rest ih =>
    rw [sortAttributes, List.foldr_cons, ← sortAttributes, lookup_insertAttribute,
      List.lookup_cons, List.lookup_cons, ih]

theorem lookup_map_writtenField (name : String) (attributes : List (String × AttributeValue)) :
    (attributes.map writtenField).lookup name =
      (attributes.lookup name).map fun value => escapeAttribute value.shown := by
  induction attributes with
  | nil => rfl
  | cons field rest ih =>
    rw [List.map_cons, List.lookup_cons, List.lookup_cons, ih]
    rw [writtenField]
    cases name == field.1 <;> rfl

/-- The text that an attribute stands for; it is empty if there is no attribute of that name. -/
def attributeText (attributes : List (String × AttributeValue)) (name : String) : String :=
  ((attributes.lookup name).map AttributeValue.shown).getD ""

/-- A written attribute is decoded to the text it stands for. -/
theorem fieldText_written (name : String) (attributes : List (String × AttributeValue)) :
    fieldText name ((sortAttributes attributes).map writtenField) =
      attributeText attributes name := by
  rw [fieldText, lookup_map_writtenField, lookup_sortAttributes, attributeText]
  cases attributes.lookup name with
  | none => rfl
  | some value => exact decoded_escapeAttribute value.shown

/-! ### Reading -/

section

variable (names : String → List String)

/-- The decoded values of the attributes that are named for each tag, in order. -/
def attributeTexts (pieces : List Piece) : List String :=
  (collect (fun tag fields => some ((names tag).map (fieldText · fields))) pieces).flatten

/-- From an element, its own attributes are read, and then those in its children. -/
theorem attributeTexts_pieces_element (tag : String) (attributes : List (String × AttributeValue))
    (children : List Markup) :
    attributeTexts names (Markup.element tag attributes children).pieces =
      (names tag).map (attributeText attributes) ++
        children.flatMap fun child => attributeTexts names child.pieces := by
  rw [attributeTexts, collect_pieces_element, List.flatten_append, List.flatten_eq_flatMap,
    List.flatten_eq_flatMap, List.flatMap_assoc]
  simp only [attributeTexts, fieldText_written, Option.toList_some, List.flatMap_singleton,
    List.flatten_eq_flatMap, id]

theorem attributeTexts_leaf (tag : String) (attributes : List (String × AttributeValue)) :
    attributeTexts names (leaf tag attributes).pieces =
      (names tag).map (attributeText attributes) := by
  rw [leaf, attributeTexts_pieces_element, List.flatMap_nil, List.append_nil]

theorem attributeTexts_withText (tag : String) (attributes : List (String × AttributeValue))
    (text : String) :
    attributeTexts names (withText tag attributes text).pieces =
      (names tag).map (attributeText attributes) := by
  rw [withText, attributeTexts_pieces_element, List.append_right_eq_self]
  split
  · rfl
  · rw [List.flatMap_singleton, pieces, attributeTexts, collect_chars]
    rfl

end

/-! ### Writing -/

/-- Attributes are written iff each value has a text. -/
theorem exists_writeAttributes_iff {attributes : List (String × AttributeValue)} :
    (∃ text, writeAttributes attributes = .ok text) ↔
      ∀ field ∈ attributes, field.2.IsWritten := by
  induction attributes with
  | nil => exact iff_of_true ⟨"", rfl⟩ fun _ hfield => absurd hfield List.not_mem_nil
  | cons field rest ih =>
    obtain ⟨name, value⟩ := field
    simp only [List.forall_mem_cons, ← ih, writeAttributes, bind_eq_ok_iff, pure_eq_ok_iff]
    constructor
    · rintro ⟨_, written, hwritten, others, hothers, -⟩
      exact ⟨⟨written, hwritten⟩, others, hothers⟩
    · rintro ⟨⟨written, hwritten⟩, others, hothers⟩
      exact ⟨_, written, hwritten, others, hothers, rfl⟩

/-- Whether a tree has a text. -/
def IsWritten (tree : Markup) : Prop :=
  ∃ text, tree.write = .ok text

/-- Trees in a row are written iff each of them is. -/
theorem exists_writeAll_iff {trees : List Markup} :
    (∃ text, writeAll trees = .ok text) ↔ ∀ tree ∈ trees, tree.IsWritten := by
  induction trees with
  | nil => exact iff_of_true ⟨"", rfl⟩ fun _ htree => absurd htree List.not_mem_nil
  | cons tree rest ih =>
    simp only [List.forall_mem_cons, ← ih, writeAll, bind_eq_ok_iff, pure_eq_ok_iff]
    constructor
    · rintro ⟨_, written, hwritten, others, hothers, -⟩
      exact ⟨⟨written, hwritten⟩, others, hothers⟩
    · rintro ⟨⟨written, hwritten⟩, others, hothers⟩
      exact ⟨_, written, hwritten, others, hothers, rfl⟩

/-- An element is written iff all of its attributes and all of its children are. -/
theorem isWritten_element_iff {tag : String} {attributes : List (String × AttributeValue)}
    {children : List Markup} :
    (Markup.element tag attributes children).IsWritten ↔
      (∀ field ∈ attributes, field.2.IsWritten) ∧ ∀ child ∈ children, child.IsWritten := by
  have hsorted : (∀ field ∈ sortAttributes attributes, field.2.IsWritten) ↔
      ∀ field ∈ attributes, field.2.IsWritten := by
    rw [sortAttributes_eq_insertionSort]
    simp only [List.mem_insertionSort]
  rw [← hsorted, ← exists_writeAttributes_iff, ← exists_writeAll_iff, IsWritten]
  simp only [write, bind_eq_ok_iff, pure_eq_ok_iff]
  constructor
  · rintro ⟨_, fields, hfields, content, hcontent, -⟩
    exact ⟨⟨fields, hfields⟩, content, hcontent⟩
  · rintro ⟨⟨fields, hfields⟩, content, hcontent⟩
    exact ⟨_, fields, hfields, content, hcontent, rfl⟩

theorem isWritten_leaf_iff {tag : String} {attributes : List (String × AttributeValue)} :
    (leaf tag attributes).IsWritten ↔ ∀ field ∈ attributes, field.2.IsWritten := by
  rw [leaf, isWritten_element_iff]
  exact and_iff_left fun _ hchild => absurd hchild List.not_mem_nil

theorem isWritten_withText_iff {tag text : String} {attributes : List (String × AttributeValue)} :
    (withText tag attributes text).IsWritten ↔ ∀ field ∈ attributes, field.2.IsWritten := by
  rw [withText, isWritten_element_iff]
  refine and_iff_left ?_
  split
  · exact fun _ hchild => absurd hchild List.not_mem_nil
  · exact List.forall_mem_singleton.mpr ⟨_, rfl⟩

end Markup

end SyntaxDiagram
