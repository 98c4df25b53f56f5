import SyntaxDiagram.OutputFormat
import SyntaxDiagram.Proofs.Box.Tidy
import SyntaxDiagram.Proofs.Figure
import SyntaxDiagram.Proofs.Grammar.Built
import SyntaxDiagram.Proofs.Markup.WellFormed

/-!
# Figures as well-formed texts

Outside of its style sheet, the text of a figure is sound.  What could still be wrong with it comes
from the captions: an angle bracket in a link, or the mark that ends a section of raw characters in
any caption (`Entry.render_svg_sound`).
-/

namespace SyntaxDiagram

open Markup (Unbroken rawEnd values)

/-! ### Attributes without angle brackets -/

/-- No attribute has an angle bracket in its value. -/
def AngleFree (attributes : List (String × AttributeValue)) : Prop :=
  ∀ field ∈ attributes, '<' ∉ field.2.shown.toList

theorem angle_notMem_toString (n : Int) : '<' ∉ (toString n).toList :=
  notMem_toString (by decide) n

/-- No number is written with an angle bracket, whether it can be written or not. -/
theorem angle_notMem_shown_number (number : Number) :
    '<' ∉ (AttributeValue.number number).shown.toList := by
  rw [AttributeValue.shown]
  cases hwrite : AttributeValue.write (.number number) with
  | error fault => exact List.not_mem_nil
  | ok text =>
    intro hmem
    have hnumeral := AttributeValue.isNumeral_of_mem_briefNumber hwrite '<' hmem
    exact absurd hnumeral (by decide)

/-- No move is written with an angle bracket. -/
theorem angle_notMem_pathData_move (radius : Int) (move : Move) :
    '<' ∉ (move.pathData radius).toList := by
  cases move with
  | horizontal distance => exact notMem_toList_append (by decide) (angle_notMem_toString distance)
  | vertical distance => exact notMem_toList_append (by decide) (angle_notMem_toString distance)
  | arc sweep =>
    refine notMem_toList_append ?_ (angle_notMem_toString _)
    refine notMem_toList_append ?_ (by decide)
    refine notMem_toList_append ?_ (angle_notMem_toString _)
    refine notMem_toList_append ?_ (by decide)
    refine notMem_toList_append ?_ (by split <;> decide)
    refine notMem_toList_append ?_ (by decide)
    refine notMem_toList_append ?_ (angle_notMem_toString _)
    refine notMem_toList_append ?_ (by decide)
    exact notMem_toList_append (by decide) (angle_notMem_toString _)

/-- No path is written with an angle bracket. -/
theorem Connector.angle_notMem_pathData (radius : Int) (connector : Connector) :
    '<' ∉ (connector.pathData radius).toList := by
  refine notMem_toList_append ?_ (by split <;> decide)
  refine notMem_toList_append ?_ ?_
  · refine notMem_toList_append ?_ (angle_notMem_toString _)
    refine notMem_toList_append ?_ (by decide)
    exact notMem_toList_append (by decide) (angle_notMem_toString _)
  · rw [String.toList_join, List.mem_flatMap]
    rintro ⟨text, htext, hmem⟩
    obtain ⟨move, -, rfl⟩ := List.mem_map.mp htext
    exact angle_notMem_pathData_move radius move hmem

/-- The group of a neat box has no angle bracket in its attributes. -/
theorem Box.Neat.angleFree_groupAttributes {box : Box Placement} (h : box.Neat) :
    AngleFree box.groupAttributes := by
  have hclass : '<' ∉ box.groupClass.toList := by
    match box with
    | .label _ .terminal _ => exact (by decide : '<' ∉ "terminal".toList)
    | .label _ (.rule _) _ => exact (by decide : '<' ∉ "non-terminal".toList)
    | .line .. => exact (by decide : '<' ∉ "line".toList)
    | .branch .. => exact (by decide : '<' ∉ "branch".toList)
    | .loop .. => exact (by decide : '<' ∉ "loop".toList)
  unfold AngleFree groupAttributes
  rw [List.forall_mem_append, List.forall_mem_map, List.forall_mem_singleton]
  exact ⟨fun note hnote => h.note note (Option.mem_toList.mp hnote), hclass⟩

/-! ### What depends on captions alone -/

/-- A property of markup trees that an element has iff its attributes `A` allow it and its children
have it, and a label iff its text `T` allows it.  Attributes without angle brackets always do. -/
structure Observes (Q : Markup → Prop) (A : List (String × AttributeValue) → Prop)
    (T : String → Prop) : Prop where
  element : ∀ {tag attributes children}, (∀ child ∈ children, child.IsElement) →
    (Q (.element tag attributes children) ↔ A attributes ∧ ∀ child ∈ children, Q child)
  angleFree : ∀ {attributes}, AngleFree attributes → A attributes
  text : ∀ x y text, Q (Box.labelText x y text) ↔ T text

namespace Observes

variable {Q : Markup → Prop} {A : List (String × AttributeValue) → Prop} {T : String → Prop}
  {m : Metrics} {theme : Theme}

/-- What is asked of a caption. -/
def Allows (A : List (String × AttributeValue) → Prop) (T : String → Prop)
    (caption : LabelKind × String) : Prop :=
  (Box.isLinked caption.1 = true → A [("xlink:href", .text ("#" ++ caption.2))]) ∧ T caption.2

/-- A leaf whose attributes have no angle brackets has the property. -/
theorem leaf (hQ : Observes Q A T) {tag : String} {attributes : List (String × AttributeValue)}
    (h : AngleFree attributes) : Q (Markup.leaf tag attributes) :=
  (hQ.element fun _ hchild => absurd hchild List.not_mem_nil).mpr
    ⟨hQ.angleFree h, fun _ hchild => absurd hchild List.not_mem_nil⟩

/-- The rectangle of a label has the property. -/
theorem labelRectangle (hQ : Observes Q A T) (frame : Frame Placement) (kind : LabelKind) :
    Q (Box.labelRectangle frame kind) := by
  refine hQ.leaf ?_
  unfold AngleFree
  rw [List.forall_mem_append]
  constructor
  · simp only [List.forall_mem_cons, List.not_mem_nil, false_imp_iff, implies_true, and_true]
    exact ⟨angle_notMem_shown_number _, angle_notMem_shown_number _, angle_notMem_shown_number _,
      angle_notMem_shown_number _⟩
  · cases kind with
    | terminal =>
      simp only [List.forall_mem_cons, List.not_mem_nil, false_imp_iff, implies_true, and_true]
      exact ⟨angle_notMem_shown_number _, angle_notMem_shown_number _⟩
    | rule target => exact fun _ hfield => absurd hfield List.not_mem_nil

theorem isElement_labelText (x y : Number) (text : String) : (Box.labelText x y text).IsElement :=
  ⟨_, _, _, rfl⟩

/-- What a box draws itself has the property iff its own caption allows it. -/
theorem own (hQ : Observes Q A T) {box : Box Placement} {own : List Markup}
    (h : box.ownMarkup theme = .ok own) :
    (∀ tree ∈ own, tree.IsElement) ∧
      ((∀ tree ∈ own, Q tree) ↔ ∀ caption ∈ box.caption?, Allows A T caption) := by
  cases box with
  | label frame kind text =>
    obtain ⟨x, y, -, -, rfl⟩ := Box.exists_of_labelMarkup h
    have hlink : Q (Box.labelLink x y text) ↔
        A [("xlink:href", .text ("#" ++ text))] ∧ T text := by
      rw [Box.labelLink, hQ.element (List.forall_mem_singleton.mpr (isElement_labelText x y text)),
        List.forall_mem_singleton, hQ.text]
    have hcaption : (∀ caption ∈ (Box.label frame kind text).caption?, Allows A T caption) ↔
        Allows A T (kind, text) := by
      rw [Box.caption?]
      simp
    rw [hcaption, List.forall_mem_cons, List.forall_mem_singleton, List.forall_mem_cons,
      List.forall_mem_singleton, and_iff_right (hQ.labelRectangle frame kind), Allows]
    by_cases hlinked : Box.isLinked kind = true
    · rw [if_pos hlinked, hlink]
      exact ⟨⟨⟨_, _, _, rfl⟩, _, _, _, rfl⟩, by simp [hlinked]⟩
    · rw [if_neg hlinked, hQ.text]
      exact ⟨⟨⟨_, _, _, rfl⟩, isElement_labelText x y text⟩, by simp [hlinked]⟩
  | _ =>
    obtain rfl := Except.ok.inj h
    simp [Box.caption?]

/-- A connector has the property when its role has no angle bracket in its name. -/
theorem connector (hQ : Observes Q A T) (radius : Int) {connector : Connector}
    (hrole : '<' ∉ connector.role.name.toList) : Q (connector.toMarkup radius) := by
  refine hQ.leaf ?_
  unfold AngleFree
  rw [List.forall_mem_cons]
  refine ⟨connector.angle_notMem_pathData radius, ?_⟩
  split
  · exact fun _ hfield => absurd hfield List.not_mem_nil
  · exact List.forall_mem_singleton.mpr hrole

/-- What is drawn of a box is an element. -/
theorem isElement_toMarkup {box : Box Placement} {tree : Markup}
    (h : box.toMarkup m theme = .ok tree) : tree.IsElement := by
  obtain ⟨own, groups, -, -, rfl⟩ := Box.exists_of_toMarkup h
  exact ⟨_, _, _, rfl⟩

/-- The group of a box has the property iff all captions of the box allow it. -/
theorem toMarkup (hQ : Observes Q A T) {box : Box Placement} (hneat : ∀ b ∈ box.boxes, b.Neat)
    {tree : Markup} (h : box.toMarkup m theme = .ok tree) :
    Q tree ↔ ∀ caption ∈ box.captions, Allows A T caption := by
  induction box using Box.induction generalizing tree with
  | step box ih =>
    obtain ⟨own, groups, hown, hgroups, rfl⟩ := Box.exists_of_toMarkup h
    obtain ⟨hownElements, hownIff⟩ := hQ.own hown
    rw [Box.boxes_eq_cons, List.forall_mem_cons, List.forall_mem_flatMap] at hneat
    obtain ⟨hbox, hchildren⟩ := hneat
    have htracks : ∀ tree ∈ Box.trackMarkup m.arcRadius box.frame, Q tree :=
      List.forall_mem_map.mpr fun connector hconnector =>
        hQ.connector _ (hbox.roles connector hconnector)
    have hgroupsIff : (∀ group ∈ groups, Q group) ↔
        ∀ child ∈ box.children, ∀ caption ∈ child.captions, Allows A T caption :=
      forall_mem_iff_of_mapM_eq_ok hgroups fun child hchild group hgroup =>
        ih child hchild (hchildren child hchild) hgroup
    rw [hQ.element, and_iff_right (hQ.angleFree hbox.angleFree_groupAttributes),
      List.forall_mem_append, List.forall_mem_append, hownIff, and_iff_left htracks, hgroupsIff,
      Box.forall_mem_captions_iff]
    rw [List.forall_mem_append, List.forall_mem_append]
    refine ⟨⟨hownElements, List.forall_mem_map.mpr fun connector _ => ⟨_, _, _, rfl⟩⟩,
      fun group hgroup => ?_⟩
    obtain ⟨child, -, htree⟩ := exists_of_mem_of_mapM_eq_ok hgroups hgroup
    exact isElement_toMarkup htree

/-- The mark at either end of a track has the property. -/
theorem terminusMarker (hQ : Observes Q A T) (x y : Int) : Q (Drawing.terminusMarker x y) := by
  refine hQ.leaf (List.forall_mem_singleton.mpr ?_)
  refine notMem_toList_append ?_ (by decide)
  refine notMem_toList_append ?_ (angle_notMem_toString _)
  refine notMem_toList_append ?_ (by decide)
  exact notMem_toList_append (by decide) (angle_notMem_toString _)

/-- What stands inside a figure has the property iff all captions of the diagram allow it. -/
theorem content (hQ : Observes Q A T) {d : Drawing} (hneat : ∀ b ∈ d.diagram.root.boxes, b.Neat)
    (htermini : ∀ connector ∈ d.termini, connector.role = .line) {tree : Markup}
    (h : d.content m theme = .ok tree) :
    Q tree ↔ ∀ caption ∈ d.diagram.root.captions, Allows A T caption := by
  obtain ⟨root, hroot, rfl⟩ := Drawing.exists_of_content h
  have hshift : AngleFree
      (if theme.oddStroke then [("transform", .text "translate(.5 .5)")] else []) := by
    split
    · exact List.forall_mem_singleton.mpr (by decide)
    · exact fun _ hfield => absurd hfield List.not_mem_nil
  have hconnectors : ∀ tree ∈ d.termini.map (·.toMarkup m.arcRadius), Q tree :=
    List.forall_mem_map.mpr fun connector hconnector =>
      hQ.connector _ (by rw [htermini connector hconnector]; exact Box.angle_notMem_line)
  rw [hQ.element, and_iff_right (hQ.angleFree hshift), List.forall_mem_append,
    List.forall_mem_cons, List.forall_mem_cons, List.forall_mem_singleton,
    and_iff_right (hQ.terminusMarker _ _), and_iff_right hconnectors,
    and_iff_left (hQ.terminusMarker _ _), hQ.toMarkup hneat hroot]
  rw [List.forall_mem_append, List.forall_mem_cons, List.forall_mem_map, List.forall_mem_cons,
    List.forall_mem_singleton]
  exact ⟨⟨⟨_, _, _, rfl⟩, fun connector _ => ⟨_, _, _, rfl⟩⟩,
    isElement_toMarkup hroot, _, _, _, rfl⟩

end Observes

/-! ### Angle brackets in attribute values, and the end of raw characters -/

/-- Escaping an attribute value neither adds nor takes away angle brackets. -/
theorem angle_notMem_escapeAttribute_iff (text : String) :
    '<' ∉ (Markup.escapeAttribute text).toList ↔ '<' ∉ text.toList := by
  rw [Markup.angle_mem_escapeAttribute_iff]

/-- Being without angle brackets in attribute values is such a property. -/
theorem observes_values :
    Observes (fun tree => ∀ value ∈ values tree.pieces, '<' ∉ value.toList) AngleFree
      fun _ => True where
  element _ := by
    rw [Markup.forall_mem_values_element]
    simp only [angle_notMem_escapeAttribute_iff]
    rfl
  angleFree h := h
  text x y text := by
    refine iff_of_true ?_ trivial
    rw [Box.labelText, Markup.withText, Markup.forall_mem_values_element]
    simp only [angle_notMem_escapeAttribute_iff, List.forall_mem_cons, List.not_mem_nil,
      false_imp_iff, implies_true, and_true]
    refine ⟨⟨angle_notMem_shown_number x, angle_notMem_shown_number y⟩, ?_⟩
    split
    · exact fun child hchild => absurd hchild List.not_mem_nil
    · rw [List.forall_mem_singleton, Markup.pieces, values, Markup.collect_chars]
      exact fun value hvalue => absurd hvalue List.not_mem_nil

/-- Being without the end of raw characters is such a property: only running text has it. -/
theorem observes_unbroken :
    Observes (fun tree => Unbroken tree.pieces) (fun _ => True)
      fun text => ¬ rawEnd <:+: text.toList where
  element h := by
    rw [Markup.unbroken_element_iff h, true_and]
  angleFree _ := trivial
  text _ _ _ := Markup.unbroken_text_iff

/-! ### Figures as documents of their own -/

namespace Drawing

variable {m : Metrics} {theme : Theme} {d : Drawing} {content : Markup} {text : String}

/-- A figure as a document of its own, without a style sheet. -/
def outline (theme : Theme) (d : Drawing) (content : Markup) : Markup :=
  .element "svg"
    (d.figureAttributes theme ++
      [("xmlns", .text "http://www.w3.org/2000/svg"),
        ("xmlns:xlink", .text "http://www.w3.org/1999/xlink")])
    [content]

/-- In the text of a document, the style sheet is the last thing inside of the outline. -/
theorem exists_of_writeStandalone {css : Option String}
    (h : d.writeStandalone m theme css = .ok text) :
    ∃ content front, d.content m theme = .ok content ∧
      (d.outline theme content).write = .ok (front ++ "</svg>") ∧
      text = front ++ Markup.writeStyle (css.getD theme.style) ++ "</svg>" := by
  rw [writeStandalone, bind_eq_ok_iff] at h
  obtain ⟨document, hdocument, h⟩ := h
  rw [standaloneFigure, bind_eq_ok_iff] at hdocument
  obtain ⟨content, hcontent, hdocument⟩ := hdocument
  obtain rfl := pure_eq_ok_iff.mp hdocument
  rw [Markup.write, bind_eq_ok_iff] at h
  obtain ⟨fields, hfields, h⟩ := h
  obtain ⟨written, hwritten, h⟩ := bind_eq_ok_iff.mp h
  obtain rfl := pure_eq_ok_iff.mp h
  rw [Markup.writeAll, bind_eq_ok_iff] at hwritten
  obtain ⟨first, hfirst, hwritten⟩ := hwritten
  obtain ⟨style, hstyle, hwritten⟩ := bind_eq_ok_iff.mp hwritten
  obtain rfl := pure_eq_ok_iff.mp hwritten
  obtain rfl : style = Markup.writeStyle (css.getD theme.style) ++ "" := (Except.ok.inj hstyle).symm
  have hclose : "</" ++ "svg" ++ ">" = "</svg>" := by decide
  have hline : (if Markup.opensLine "svg" then "\n" else "") = "\n" := if_pos (by decide)
  have hfront : (Markup.writeAll [content]) = .ok first := by
    rw [Markup.writeAll, hfirst, Markup.writeAll]
    exact congrArg Except.ok String.append_empty
  -- the outline ends where the style sheet begins in the document
  refine ⟨content, "<" ++ "svg" ++ fields ++ ">" ++ "\n" ++ first, hcontent, ?_, ?_⟩
  · rw [outline, Markup.write, hfields, hfront, hline, ← hclose]
    simp only [← String.append_assoc]
    rfl
  · rw [hline, ← hclose, String.append_empty]
    simp only [String.append_assoc]

/-- The outline of a figure is a regular tree. -/
theorem regular_outline (h : d.content m theme = .ok content) :
    (d.outline theme content).Regular :=
  .of_names ["class", "width", "height", "viewBox", "xmlns", "xmlns:xlink"] rfl (by decide)
    (List.forall_mem_singleton.mpr (regular_content h))

/-- The attributes of a figure have no angle bracket when the theme's class has none. -/
theorem angleFree_figureAttributes (hclass : '<' ∉ theme.diagramClass.toList) (d : Drawing) :
    AngleFree (d.figureAttributes theme) := by
  unfold AngleFree figureAttributes
  simp only [List.forall_mem_cons, List.not_mem_nil, false_imp_iff, implies_true, and_true]
  refine ⟨hclass, angle_notMem_shown_number _, angle_notMem_shown_number _, ?_⟩
  refine notMem_toList_append ?_ (angle_notMem_toString _)
  refine notMem_toList_append ?_ (by decide)
  exact notMem_toList_append (by decide) (angle_notMem_toString _)

end Drawing

section

variable {Q : Markup → Prop} {A : List (String × AttributeValue) → Prop} {T : String → Prop}
  {m : Metrics} {theme : Theme} {d : Drawing}

/-- The outline of a figure has the property iff all captions of the diagram allow it. -/
theorem Observes.outline (hQ : Observes Q A T) (hclass : '<' ∉ theme.diagramClass.toList)
    (hneat : ∀ b ∈ d.diagram.root.boxes, b.Neat)
    (htermini : ∀ connector ∈ d.termini, connector.role = .line) {content : Markup}
    (h : d.content m theme = .ok content) :
    Q (d.outline theme content) ↔ ∀ caption ∈ d.diagram.root.captions, Allows A T caption := by
  have hattributes : AngleFree (d.figureAttributes theme ++
      [("xmlns", .text "http://www.w3.org/2000/svg"),
        ("xmlns:xlink", .text "http://www.w3.org/1999/xlink")]) := by
    refine List.forall_mem_append.mpr ⟨d.angleFree_figureAttributes hclass, ?_⟩
    rw [List.forall_mem_cons, List.forall_mem_singleton]
    exact ⟨(by decide : '<' ∉ "http://www.w3.org/2000/svg".toList),
      (by decide : '<' ∉ "http://www.w3.org/1999/xlink".toList)⟩
  have helement : content.IsElement := by
    obtain ⟨root, -, rfl⟩ := Drawing.exists_of_content h
    exact ⟨_, _, _, rfl⟩
  rw [Drawing.outline, hQ.element (List.forall_mem_singleton.mpr helement),
    and_iff_right (hQ.angleFree hattributes), List.forall_mem_singleton,
    hQ.content hneat htermini h]

/-- Outside of the style sheet a document is sound.  It has an angle bracket in an attribute value
iff a caption that is linked has one, and the mark that ends a section of raw characters in running
text iff a caption has it. -/
theorem Drawing.exists_sound {css : Option String} {text : String}
    (hclass : '<' ∉ theme.diagramClass.toList) (hneat : ∀ b ∈ d.diagram.root.boxes, b.Neat)
    (htermini : ∀ connector ∈ d.termini, connector.role = .line)
    (h : d.writeStandalone m theme css = .ok text) :
    ∃ front pieces, text = front ++ Markup.writeStyle (css.getD theme.style) ++ "</svg>" ∧
      Markup.Sound (front ++ "</svg>") pieces ∧
      ((∀ value ∈ values pieces, '<' ∉ value.toList) ↔
        ∀ caption ∈ d.diagram.root.captions,
          Box.isLinked caption.1 = true → '<' ∉ caption.2.toList) ∧
      (Unbroken pieces ↔
        ∀ caption ∈ d.diagram.root.captions, ¬ rawEnd <:+: caption.2.toList) := by
  obtain ⟨content, front, hcontent, hwrite, htext⟩ := exists_of_writeStandalone h
  refine ⟨front, (d.outline theme content).pieces, htext,
    Markup.sound_write (regular_outline hcontent) hwrite, ?_, ?_⟩
  · have hlink (text : String) : AngleFree [("xlink:href", .text ("#" ++ text))] ↔
        '<' ∉ text.toList := by
      rw [AngleFree, List.forall_mem_singleton, AttributeValue.shown, String.toList_append,
        List.mem_append, or_iff_right (by decide)]
    rw [observes_values.outline hclass hneat htermini hcontent]
    simp only [Observes.Allows, hlink, and_true]
  · rw [observes_unbroken.outline hclass hneat htermini hcontent]
    simp only [Observes.Allows, implies_true, true_and]

end

/-! ### Entries as documents of their own -/

/-- Rendering as SVG writes a document of its own. -/
theorem Drawing.render_svg (m : Metrics) (theme : Theme) (d : Drawing) :
    d.render m theme "svg" = d.writeStandalone m theme none := by
  have hformat : OutputFormat.forDiagram d.diagram.identifier "svg" = .ok .svg := rfl
  rw [render, hformat]
  rfl

namespace Entry

variable {m : Metrics} {measure : Measure} {entry : Entry} {d : Drawing} {text : String}

/-- The first and the last track of a layout are lines. -/
theorem role_of_mem_termini (h : entry.layout m measure = .ok d) :
    ∀ connector ∈ d.termini, connector.role = .line := by
  rw [layout, bind_eq_ok_iff] at h
  obtain ⟨root, -, h⟩ := h
  obtain rfl := pure_eq_ok_iff.mp h
  rw [Diagram.draw, List.forall_mem_cons, List.forall_mem_singleton]
  exact ⟨rfl, rfl⟩

/-- What is wrong with the document of an entry, if anything, comes from captions of the entry. -/
theorem exists_sound_writeStandalone {theme : Theme} {css : Option String}
    (hclass : '<' ∉ theme.diagramClass.toList) (hlayout : entry.layout m measure = .ok d)
    (h : d.writeStandalone m theme css = .ok text) :
    ∃ front pieces, text = front ++ Markup.writeStyle (css.getD theme.style) ++ "</svg>" ∧
      Markup.Sound (front ++ "</svg>") pieces ∧
      ((∀ value ∈ values pieces, '<' ∉ value.toList) ↔
        ∀ caption ∈ entry.captions, Box.isLinked caption.1 = true → '<' ∉ caption.2.toList) ∧
      (Unbroken pieces ↔ ∀ caption ∈ entry.captions, ¬ rawEnd <:+: caption.2.toList) := by
  rw [← captions_layout hlayout]
  exact Drawing.exists_sound hclass (neat_layout hlayout) (role_of_mem_termini hlayout) h

/-- Outside of its style sheet, the text of an entry has nested tags, no quotation mark in an
attribute value, no angle bracket between tags, and an entity at every ampersand.  No attribute
value has an angle bracket iff no name of a linked reference has one, and the mark that ends a
section of raw characters is nowhere between tags iff it is in no caption. -/
theorem render_svg_sound (hlayout : entry.layout m measure = .ok d)
    (hrender : d.render m .standard "svg" = .ok text) :
    ∃ front pieces, text = front ++ Markup.writeStyle Theme.standard.style ++ "</svg>" ∧
      Markup.Sound (front ++ "</svg>") pieces ∧
      ((∀ value ∈ values pieces, '<' ∉ value.toList) ↔
        ∀ caption ∈ entry.captions, Box.isLinked caption.1 = true → '<' ∉ caption.2.toList) ∧
      (Unbroken pieces ↔ ∀ caption ∈ entry.captions, ¬ rawEnd <:+: caption.2.toList) := by
  have hclass : '<' ∉ Theme.standard.diagramClass.toList := by decide
  rw [Drawing.render_svg] at hrender
  have hsound := exists_sound_writeStandalone hclass hlayout hrender
  rwa [Option.getD_none] at hsound

end Entry

namespace Grammar

theorem render_svg_sound_sample : ∃ entry ∈ sample.entries, ∃ d text front pieces,
    entry.layout .standard (.const (some (.int 9))) = .ok d ∧
      d.render .standard .standard "svg" = .ok text ∧
      text = front ++ Markup.writeStyle Theme.standard.style ++ "</svg>" ∧
      Markup.Sound (front ++ "</svg>") pieces ∧ (∀ value ∈ values pieces, '<' ∉ value.toList) ∧
      Unbroken pieces := by
  let entry : Entry :=
    ⟨.rule, "sum", "", [[.reference "NUMBER" (some .terminal), .literal "+"]]⟩
  have hentry : entry ∈ sample.entries := List.mem_cons_self ..
  obtain ⟨d, text, hlayout, hrender⟩ : ∃ d text,
      entry.layout .standard (.const (some (.int 9))) = .ok d ∧
        d.render .standard .standard "svg" = .ok text :=
    exists_of_isSome_bind (by decide +kernel)
  obtain ⟨front, pieces, htext, hsound, hvalues, hunbroken⟩ :=
    Entry.render_svg_sound hlayout hrender
  exact ⟨entry, hentry, d, text, front, pieces, hlayout, hrender, htext, hsound,
    hvalues.mpr (by decide), hunbroken.mpr (by decide)⟩

/-- A rule with an angle bracket in its name, made of itself and the end of raw characters. -/
def angular : Grammar :=
  resolved "Angles" [.entry ⟨.rule, "a<b", "", [[.reference "a<b" none, .literal "]]>"]]⟩] [] "" []

theorem built_angular : angular.Built := by
  refine ⟨_, _, _, _, _, ?_,
    (rfl : build "Angles"
      [.entry ⟨.rule, "a<b", "", [[.reference "a<b" none, .literal "]]>"]]⟩] [] "" [] =
        .ok angular)⟩
  intro entry hentry
  obtain rfl := Listing.entry.inj (List.mem_singleton.mp hentry)
  exact ⟨⟨.rule, "a<b", "", [[.reference "a<b" none, .literal "]]>"]]⟩, rfl⟩

/-- The angle bracket of a name stands in the link to it, and the end of raw characters between
tags. -/
theorem unsound_sample : angular.Built ∧ ∃ entry ∈ angular.entries, ∃ d text front pieces,
    entry.layout .standard (.const (some (.int 9))) = .ok d ∧
      d.render .standard .standard "svg" = .ok text ∧
      text = front ++ Markup.writeStyle Theme.standard.style ++ "</svg>" ∧
      Markup.scan (front ++ "</svg>") = some pieces ∧
      (∃ value ∈ values pieces, '<' ∈ value.toList) ∧ ¬ Unbroken pieces := by
  let entry : Entry :=
    ⟨.rule, "a<b", "", [[.reference "a<b" (some .rule), .literal "]]>"]]⟩
  have hentry : entry ∈ angular.entries := List.mem_cons_self ..
  obtain ⟨d, text, hlayout, hrender⟩ : ∃ d text,
      entry.layout .standard (.const (some (.int 9))) = .ok d ∧
        d.render .standard .standard "svg" = .ok text :=
    exists_of_isSome_bind (by decide +kernel)
  have hclass : '<' ∉ Theme.standard.diagramClass.toList := by decide
  have hwrite := hrender
  rw [Drawing.render_svg] at hwrite
  obtain ⟨front, pieces, htext, hsound, hvalues, hunbroken⟩ :=
    Entry.exists_sound_writeStandalone hclass hlayout hwrite
  rw [Option.getD_none] at htext
  refine ⟨built_angular, entry, hentry, d, text, front, pieces, hlayout, hrender, htext,
    hsound.scan_eq, ?_, ?_⟩
  · by_contra hnone
    have hlinks := hvalues.mp fun value hvalue hmem => hnone ⟨value, hvalue, hmem⟩
    exact absurd hlinks (by decide)
  · rw [hunbroken]
    decide

end Grammar

end SyntaxDiagram
