import SyntaxDiagram.Proofs.Box.Built
import SyntaxDiagram.Proofs.Box.Heights
import SyntaxDiagram.Proofs.Box.Placing
import SyntaxDiagram.Proofs.SymbolTable

/-!
# Targets of labels

What a reference names is kept in the target of its label box and used nowhere in a layout.  So the
builders and placing commute with a change of targets (`Box.withTargets`), one after the other, and
the drawing of an entry with other kinds of references is that of the entry with other targets
(`Entry.layout_withKinds`).
-/

namespace SyntaxDiagram

/-- The kind of a label for the same text, with a target that depends on the text alone. -/
def LabelKind.withTarget (kind : String → SymbolKind) : LabelKind → String → LabelKind
  | .terminal, _ => .terminal
  | .rule _, text => .rule (some (kind text))

namespace Box

variable {α : Type} {m : Metrics}

/-- The same tree, with targets of rule boxes that depend on the texts alone. -/
def withTargets (kind : String → SymbolKind) (box : Box α) : Box α :=
  box.mapParts id (LabelKind.withTarget kind)

variable {kind : String → SymbolKind}

/-! ### What is kept -/

@[simp]
theorem frame_withTargets (box : Box α) : (box.withTargets kind).frame = box.frame :=
  frame_mapParts id _ box

@[simp]
theorem width_withTargets (box : Box α) : (box.withTargets kind).width = box.width :=
  congrArg Frame.width (frame_withTargets box)

@[simp]
theorem up_withTargets (box : Box α) : (box.withTargets kind).up = box.up :=
  congrArg Frame.up (frame_withTargets box)

@[simp]
theorem down_withTargets (box : Box α) : (box.withTargets kind).down = box.down :=
  congrArg Frame.down (frame_withTargets box)

/-- A branch leads to a box in the same way, whatever the targets in it. -/
@[simp]
theorem branchRole_withTargets (box : Box α) :
    (box.withTargets kind).branchRole = box.branchRole := by
  cases box <;> rfl

theorem sameHeights_withTargets (box : Box α) : SameHeights box (box.withTargets kind) :=
  ⟨(up_withTargets box).symm, (down_withTargets box).symm⟩

/-- What is the same for a box with other targets is the same for a list of such boxes. -/
theorem map_map_withTargets {β : Type} {f : Box α → β}
    (hf : ∀ box : Box α, f (box.withTargets kind) = f box) (items : List (Box α)) :
    (items.map (withTargets kind)).map f = items.map f := by
  rw [List.map_map]
  exact List.map_congr_left fun item _ => hf item

theorem withTargets_line (frame : Frame α) (role : Role) (items : List (Box α)) :
    (line frame role items).withTargets kind =
      .line frame role (items.map (withTargets kind)) := by
  rw [withTargets, mapParts, mapPartsList_eq_map]
  rfl

theorem withTargets_branch (frame : Frame α) (mainIndex : Nat) (separators offsets : List Int)
    (items : List (Box α)) :
    (branch frame mainIndex separators offsets items).withTargets kind =
      .branch frame mainIndex separators offsets (items.map (withTargets kind)) := by
  rw [withTargets, mapParts, mapPartsList_eq_map]
  rfl

/-! ### Builders -/

section builders

variable [Inhabited α]

/-- The label builder with another target. -/
theorem withTargets_ofLabel (label : LabelKind) (text : String) (textWidth : Int) :
    (ofLabel m label text textWidth : Box α).withTargets kind =
      ofLabel m (label.withTarget kind text) text textWidth := by
  cases label <;> rfl

/-- The line builder over items with other targets. -/
theorem withTargets_ofItems (role : Role) (items : List (Box α)) :
    (ofItems m role items).withTargets kind =
      ofItems m role (items.map (withTargets kind)) := by
  cases items with
  | nil => rfl
  | cons first rest =>
    simp only [ofItems, withTargets_line, List.map_cons, width_withTargets, up_withTargets,
      down_withTargets, map_map_withTargets width_withTargets, map_map_withTargets up_withTargets,
      map_map_withTargets down_withTargets, List.length_map]

/-- A stacked branch keeps its items in order, and all else of it comes from their sizes. -/
theorem stacked_eq_branch (above : List (Box α)) (main : Box α) (below : List (Box α)) :
    stacked m above main below =
      .branch (newFrame m "Branch" (stacked m above main below).width
          (stacked m above main below).up (stacked m above main below).down) above.length
        (stacked m above main below).separators (stacked m above main below).offsets
        (above ++ main :: below) := rfl

/-- The branch builder over items with other targets. -/
theorem withTargets_stacked (above : List (Box α)) (main : Box α) (below : List (Box α)) :
    (stacked m above main below).withTargets kind =
      stacked m (above.map (withTargets kind)) (main.withTargets kind)
        (below.map (withTargets kind)) := by
  have hmain : SameHeights main (main.withTargets kind) := sameHeights_withTargets main
  have hitems (items : List (Box α)) :
      List.Forall₂ SameHeights items (items.map (withTargets kind)) :=
    List.forall₂_map_right_iff.mpr
      (List.forall₂_same.mpr fun item _ => sameHeights_withTargets item)
  have hheights := SameHeights.stacked (m := m) (hitems above) hmain (hitems below)
  have hwidth : (stacked m above main below).width =
      (stacked m (above.map (withTargets kind)) (main.withTargets kind)
        (below.map (withTargets kind))).width := by
    show 4 * m.arcRadius + greatest main.width ((above ++ below).map width) =
      4 * m.arcRadius + greatest (main.withTargets kind).width
        ((above.map (withTargets kind) ++ below.map (withTargets kind)).map width)
    rw [width_withTargets, ← List.map_append, map_map_withTargets width_withTargets]
  rw [stacked_eq_branch above, withTargets_branch, stacked_eq_branch (above.map _), hwidth,
    hheights.up_eq, hheights.down_eq, SameHeights.separators_eq (hitems above) hmain (hitems below),
    SameHeights.offsets_eq (hitems above) hmain (hitems below), List.length_map, List.map_append,
    List.map_cons]

/-- The loop builder over an item with other targets. -/
theorem withTargets_repeated (item : Box α) :
    (Box.repeated m item).withTargets kind = Box.repeated m (item.withTargets kind) := by
  rw [Box.repeated, Box.repeated, width_withTargets, up_withTargets, down_withTargets]
  rfl

/-- A choice between boxes with other targets fails or succeeds as before. -/
theorem withTargets_ofBranches (items : List (Box α)) :
    ofBranches m 0 (items.map (withTargets kind)) =
      (ofBranches m 0 items).map (withTargets kind) := by
  cases items with
  | nil => rfl
  | cons main below => exact congrArg Except.ok (withTargets_stacked [] main below).symm

end builders

/-! ### Placing -/

/-- Placing pays no attention to targets. -/
theorem place_withTargets (x y span : Int) (box : Box α) :
    (box.withTargets kind).place m x y span = (box.place m x y span).withTargets kind := by
  induction box using Box.induction generalizing x y span with
  | step box ih =>
    cases box with
    | label frame label text => rfl
    | line frame role items =>
      have hitems : ∀ item ∈ items, ∀ x y span, (item.withTargets kind).place m x y span =
        (item.place m x y span).withTargets kind := ih
      rw [withTargets_line, place, place, withTargets_line, placeRow_map hitems width_withTargets,
        map_map_withTargets width_withTargets, List.isEmpty_map]
    | branch frame mainIndex separators offsets items =>
      have hitems : ∀ item ∈ items, ∀ x y span, (item.withTargets kind).place m x y span =
        (item.place m x y span).withTargets kind := ih
      rw [withTargets_branch, place, place, withTargets_branch, placeStack_map hitems,
        map_map_withTargets branchRole_withTargets]
    | loop frame offset item =>
      have hitem := ih item (List.mem_singleton_self item)
      show Box.loop _ offset ((item.withTargets kind).place m _ _ _) =
        Box.loop _ offset ((item.place m _ _ _).withTargets kind)
      rw [hitem]
      rfl

end Box

/-! ### Layout -/

namespace Element

variable {m : Metrics} {measure : Measure} {kind : String → SymbolKind}

/-- A label has the same width, or fails in the same way, with any target. -/
theorem measured_withTarget (label : LabelKind) (text : String) :
    Box.measured m measure (label.withTarget kind text) text =
      (Box.measured m measure label text : Except Fault (Box Unit)).map
        (Box.withTargets kind) := by
  unfold Box.measured
  cases measure.labelWidth text with
  | error fault => rfl
  | ok textWidth => exact congrArg Except.ok (Box.withTargets_ofLabel label text textWidth).symm

/-- A quantifier draws or fails in the same way with any targets. -/
theorem quantifiedBox_withTargets (item : Box Unit) (quantifier : Quantifier) :
    quantifiedBox m (item.withTargets kind) quantifier =
      (quantifiedBox m item quantifier).map (Box.withTargets kind) := by
  cases quantifier with
  | optional => exact congrArg Except.ok (Box.withTargets_stacked [bypassTrack m] item []).symm
  | star =>
    show Except.ok (Box.stacked m [bypassTrack m] (.repeated m (item.withTargets kind)) []) =
      .ok ((Box.stacked m [bypassTrack m] (.repeated m item) []).withTargets kind)
    rw [← Box.withTargets_repeated]
    exact congrArg Except.ok
      (Box.withTargets_stacked [bypassTrack m] (.repeated m item) []).symm
  | plus => exact congrArg Except.ok (Box.withTargets_repeated item).symm
  | unknown mark => rfl

/-- The box of an element with other kinds of references is its box with other targets. -/
theorem toBox_withKinds (element : Element) :
    (element.withKinds kind).toBox m measure =
      (element.toBox m measure).map (Box.withTargets kind) := by
  induction element with
  | literal text => exact measured_withTarget .terminal text
  | reference identifier kind' => exact measured_withTarget (.rule kind') identifier
  | sequence items ih =>
    rw [withKinds, withKindsList_eq_map, toBox, toBox, toBoxes_eq_mapM, toBoxes_eq_mapM,
      mapM_map_of_forall ih]
    exact bind_map_of_forall fun items =>
      congrArg Except.ok (Box.withTargets_ofItems .line items).symm
  | alternation branches ih =>
    rw [withKinds, withKindsList_eq_map, toBox, toBox, toBoxes_eq_mapM, toBoxes_eq_mapM,
      mapM_map_of_forall ih]
    exact bind_map_of_forall Box.withTargets_ofBranches
  | quantified item quantifier ih =>
    rw [withKinds, toBox, toBox, ih]
    exact bind_map_of_forall fun item => quantifiedBox_withTargets item quantifier
  | foreign name => rfl

end Element

section layout

variable {m : Metrics} {measure : Measure} {kind : String → SymbolKind}

/-- A production with other kinds of references is laid out with other targets. -/
theorem alternativesBox_withKinds (alternatives : List (List Element)) :
    alternativesBox m measure (alternatives.map (·.map (Element.withKinds kind))) =
      (alternativesBox m measure alternatives).map (Box.withTargets kind) := by
  have hline (alternative : List Element) :
      (do
        let items ← Element.toBoxes m measure (alternative.map (Element.withKinds kind))
        return Box.ofItems m .line items) =
      Except.map (Box.withTargets kind) (do
        let items ← Element.toBoxes m measure alternative
        return Box.ofItems m .line items) := by
    rw [Element.toBoxes_eq_mapM, Element.toBoxes_eq_mapM,
      mapM_map_of_forall fun element _ => Element.toBox_withKinds element]
    exact bind_map_of_forall fun items =>
      congrArg Except.ok (Box.withTargets_ofItems .line items).symm
  rw [alternativesBox, alternativesBox, mapM_map_of_forall fun alternative _ => hline alternative]
  refine bind_map_of_forall fun lines => ?_
  -- nothing, a single line, or a branch of several
  rcases lines with _ | ⟨first, _ | ⟨second, rest⟩⟩
  · rfl
  · rfl
  · exact congrArg Except.ok (Box.withTargets_stacked [] first (second :: rest)).symm

/-- The same drawing, with targets of rule boxes that depend on the texts alone. -/
def Drawing.withTargets (kind : String → SymbolKind) (d : Drawing) : Drawing :=
  { d with diagram := d.diagram.withRoot (d.diagram.root.withTargets kind) }

/-- Drawing pays no attention to targets. -/
theorem Diagram.draw_withTargets (entry : Entry) (root : Box Unit) (padding : Int) :
    (ofBox m (entry.withKinds kind) (root.withTargets kind) padding).draw m =
      ((ofBox m entry root padding).draw m).withTargets kind := by
  simp only [draw, withRoot, ofBox, Drawing.withTargets, Box.place_withTargets,
    Box.up_withTargets, Box.down_withTargets, Box.width_withTargets]
  rfl

/-- The layout of an entry with other kinds of references is its layout with other targets, and
fails in the same way. -/
theorem Entry.layout_withKinds (entry : Entry) :
    (entry.withKinds kind).layout m measure =
      (entry.layout m measure).map (Drawing.withTargets kind) := by
  have hbox : alternativesBox m measure (entry.withKinds kind).alternatives =
      (alternativesBox m measure entry.alternatives).map (Box.withTargets kind) :=
    alternativesBox_withKinds entry.alternatives
  unfold layout
  rw [hbox]
  cases alternativesBox m measure entry.alternatives with
  | error fault => rfl
  | ok root => exact congrArg Except.ok (Diagram.draw_withTargets entry root _)

end layout

end SyntaxDiagram
