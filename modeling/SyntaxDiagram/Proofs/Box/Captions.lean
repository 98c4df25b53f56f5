import SyntaxDiagram.Proofs.Box.Built
import SyntaxDiagram.Proofs.Box.Placing

/-!
# Captions

A caption is what a label box shows, with the kind of the label.  The drawing of an entry has the
captions of the leaves of the entry, in order and with none left out (`Entry.captions_layout`).
-/

namespace SyntaxDiagram

/-! ### Captions of elements -/

namespace Element

/-- The caption for a leaf. -/
def caption? : Element → Option (LabelKind × String)
  | .literal text => some (.terminal, text)
  | .reference identifier kind => some (.rule kind, identifier)
  | _ => none

/-- The captions for the leaves of an element, from left to right. -/
def captions (element : Element) : List (LabelKind × String) :=
  element.walk.filterMap caption?

/-- The captions of a sequence are those of its items, from left to right. -/
theorem captions_sequence (items : List Element) :
    (sequence items).captions = items.flatMap captions := by
  rw [captions, walk, walkList_eq_flatMap, List.filterMap_cons_none (by rfl),
    List.filterMap_flatMap]
  rfl

theorem captions_alternation (branches : List Element) :
    (alternation branches).captions = branches.flatMap captions := by
  rw [captions, walk, walkList_eq_flatMap, List.filterMap_cons_none (by rfl),
    List.filterMap_flatMap]
  rfl

/-- A quantifier has no caption. -/
theorem captions_quantified (item : Element) (quantifier : Quantifier) :
    (quantified item quantifier).captions = item.captions := by
  rw [captions, walk, List.filterMap_cons_none (by rfl), captions]

end Element

namespace Entry

/-- The captions for the leaves of an entry, from left to right. -/
def captions (entry : Entry) : List (LabelKind × String) :=
  entry.walk.filterMap Element.caption?

theorem captions_eq_flatMap (entry : Entry) :
    entry.captions = entry.alternatives.flatMap fun alternative =>
      alternative.flatMap Element.captions := by
  simp only [captions, walk, Element.walkList_eq_flatMap, List.filterMap_flatMap]
  rfl

end Entry

namespace Box

/-! ### Captions of boxes -/

section

variable {α : Type}

/-- What a label box shows. -/
def caption? : Box α → Option (LabelKind × String)
  | .label _ kind text => some (kind, text)
  | _ => none

/-- What the label boxes of a tree show, in order. -/
def captions (box : Box α) : List (LabelKind × String) :=
  box.boxes.filterMap caption?

/-- The captions of a tree are its root's own, then those of each child. -/
theorem captions_eq_append (box : Box α) :
    box.captions = box.caption?.toList ++ box.children.flatMap captions := by
  rw [captions, boxes_eq_cons, ← List.singleton_append, List.filterMap_append,
    List.filterMap_flatMap]
  cases box <;> rfl

/-- What holds of all captions of a tree holds of its root's and of those of each child. -/
theorem forall_mem_captions_iff {P : LabelKind × String → Prop} {box : Box α} :
    (∀ caption ∈ box.captions, P caption) ↔
      (∀ caption ∈ box.caption?, P caption) ∧
        ∀ child ∈ box.children, ∀ caption ∈ child.captions, P caption := by
  rw [captions_eq_append, List.forall_mem_append, List.forall_mem_flatMap]
  simp only [Option.mem_toList, Option.mem_def]

theorem captions_eq_flatMap {box : Box α} (h : box.caption? = none) :
    box.captions = box.children.flatMap captions := by
  rw [captions_eq_append, h]
  rfl

/-- Placing a tree makes no difference to what its label boxes show. -/
theorem captions_place {m : Metrics} (x y span : Int) (box : Box α) :
    (box.place m x y span).captions = box.captions := by
  have hcaption (box : Box α) (x y span : Int) :
      (box.place m x y span).caption? = box.caption? := by
    cases box <;> rfl
  have hmap {β : Type} (b : Box β) : b.captions = (b.boxes.map caption?).filterMap id := by
    rw [captions, List.filterMap_map, Function.id_comp]
  rw [hmap, hmap, map_boxes_place hcaption]

end

/-! ### Building keeps captions -/

section

variable {α : Type} [Inhabited α] {m : Metrics}

theorem captions_ofItems (role : Role) (items : List (Box α)) :
    (ofItems m role items).captions = items.flatMap captions := by
  cases items with
  | nil => rfl
  | cons first rest => exact captions_eq_flatMap rfl

theorem captions_stacked (above : List (Box α)) (main : Box α) (below : List (Box α)) :
    (stacked m above main below).captions = (above ++ main :: below).flatMap captions :=
  captions_eq_flatMap rfl

theorem captions_repeated (item : Box α) : (Box.repeated m item).captions = item.captions := by
  rw [Box.repeated, captions_eq_flatMap rfl, children, List.flatMap_singleton]

/-- A label shows its text under its kind. -/
theorem captions_of_measured {measure : Measure} {kind : LabelKind} {text : String} {box : Box α}
    (h : measured m measure kind text = .ok box) : box.captions = [(kind, text)] := by
  rw [measured, bind_eq_ok_iff] at h
  obtain ⟨textWidth, -, h⟩ := h
  obtain rfl := pure_eq_ok_iff.mp h
  rfl

/-- A choice shows what its items show, in order. -/
theorem captions_of_ofBranches {mainIndex : Int} {items : List (Box α)} {box : Box α}
    (h : ofBranches m mainIndex items = .ok box) : box.captions = items.flatMap captions := by
  unfold ofBranches at h
  split_ifs at h with hneg
  split at h
  · exact absurd h (by simp)
  · rename_i main below hdrop
    obtain rfl := Except.ok.inj h
    rw [captions_stacked, ← hdrop, List.take_append_drop]

end

end Box

/-! ### Layout keeps captions -/

namespace Element

variable {m : Metrics} {measure : Measure}

/-- Loops and bypasses show what their item shows, once. -/
theorem captions_of_quantifiedBox {item box : Box Unit} {quantifier : Quantifier}
    (h : quantifiedBox m item quantifier = .ok box) : box.captions = item.captions := by
  have hbypass : (bypassTrack m).captions = [] := Box.captions_ofItems .bypass []
  cases quantifier with
  | optional =>
    obtain rfl := Except.ok.inj h
    simp [Box.captions_stacked, hbypass]
  | star =>
    obtain rfl := Except.ok.inj h
    simp [Box.captions_stacked, Box.captions_repeated, hbypass]
  | plus =>
    obtain rfl := Except.ok.inj h
    exact Box.captions_repeated item
  | unknown mark => exact absurd h (by simp [quantifiedBox])

/-- Boxes made one by one show in a row what each element says. -/
theorem flatMap_captions_of_mapM {elements : List Element} {boxes : List (Box Unit)}
    (h : elements.mapM (toBox m measure) = .ok boxes)
    (hcaptions : ∀ element ∈ elements, ∀ box, element.toBox m measure = .ok box →
      box.captions = element.captions) :
    boxes.flatMap Box.captions = elements.flatMap captions := by
  rw [List.flatMap_def, List.flatMap_def, map_eq_map_of_mapM_eq_ok h hcaptions]

/-- The box of an element shows the leaves of the element, by induction over the element. -/
theorem captions_of_toBox {element : Element} {box : Box Unit}
    (h : element.toBox m measure = .ok box) : box.captions = element.captions := by
  induction element generalizing box with
  | literal text => exact Box.captions_of_measured h
  | reference identifier kind => exact Box.captions_of_measured h
  | sequence items ih =>
    obtain ⟨boxes, hboxes, rfl⟩ := toBox_sequence_eq_ok_iff.mp h
    rw [Box.captions_ofItems, captions_sequence,
      flatMap_captions_of_mapM hboxes fun item hitem box hbox => ih item hitem hbox]
  | alternation branches ih =>
    obtain ⟨boxes, hboxes, h⟩ := toBox_alternation_eq_ok_iff.mp h
    rw [Box.captions_of_ofBranches h, captions_alternation,
      flatMap_captions_of_mapM hboxes fun branch hbranch box hbox => ih branch hbranch hbox]
  | quantified item quantifier ih =>
    obtain ⟨inner, hinner, h⟩ := toBox_quantified_eq_ok_iff.mp h
    rw [captions_of_quantifiedBox h, captions_quantified, ih hinner]
  | foreign name => exact absurd h (by simp [toBox])

/-- A line of boxes shows the leaves of its elements, in order. -/
theorem captions_of_line {elements : List Element} {line : Box Unit}
    (h : (do return Box.ofItems m .line (← toBoxes m measure elements)) = Except.ok line) :
    line.captions = elements.flatMap captions := by
  obtain ⟨boxes, hboxes, rfl⟩ := line_eq_ok_iff.mp h
  rw [Box.captions_ofItems,
    flatMap_captions_of_mapM hboxes fun _ _ _ hbox => captions_of_toBox hbox]

end Element

/-- The box of a production shows its leaves, alternative by alternative. -/
theorem captions_of_alternativesBox {m : Metrics} {measure : Measure}
    {alternatives : List (List Element)} {box : Box Unit}
    (h : alternativesBox m measure alternatives = .ok box) :
    box.captions = alternatives.flatMap fun alternative =>
      alternative.flatMap Element.captions := by
  rw [alternativesBox, bind_eq_ok_iff] at h
  obtain ⟨lines, hlines, h⟩ := h
  have hcaptions : lines.map Box.captions =
      alternatives.map fun alternative => alternative.flatMap Element.captions :=
    map_eq_map_of_mapM_eq_ok hlines fun _ _ _ hline => Element.captions_of_line hline
  rw [List.flatMap_def, ← hcaptions, ← List.flatMap_def]
  -- nothing, a single line, or a branch of several
  rcases lines with _ | ⟨first, _ | ⟨second, rest⟩⟩
  · obtain rfl := pure_eq_ok_iff.mp h
    rfl
  · obtain rfl := pure_eq_ok_iff.mp h
    rw [List.flatMap_singleton]
  · obtain rfl := pure_eq_ok_iff.mp h
    rw [Box.captions_stacked, List.nil_append]

/-- A layout shows the leaves of its entry, in order. -/
theorem Entry.captions_layout {m : Metrics} {measure : Measure} {entry : Entry} {d : Drawing}
    (h : entry.layout m measure = .ok d) : d.diagram.root.captions = entry.captions := by
  rw [layout, bind_eq_ok_iff] at h
  obtain ⟨root, hroot, h⟩ := h
  obtain rfl := pure_eq_ok_iff.mp h
  rw [mapError_eq_ok_iff] at hroot
  have hplaced : ((Diagram.ofBox m entry root Diagram.standardPadding).draw m).diagram.root.captions
      = root.captions := Box.captions_place _ _ _ _
  rw [hplaced, captions_of_alternativesBox hroot, captions_eq_flatMap]

end SyntaxDiagram
