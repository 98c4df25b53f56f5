import SyntaxDiagram.Proofs.Figure
import SyntaxDiagram.Proofs.Geometry.Containment
import SyntaxDiagram.Proofs.Markup.Attributes
import SyntaxDiagram.Proofs.Number.Brief

/-!
# Sizes in figures

The sizes in the attributes of a figure are texts of doubles, so they are read back exactly iff they
have six significant digits (`Box.forall₂_isBriefText_toMarkup`,
`Drawing.forall₂_isBriefText_figure`).  The frame that is looked through and the tracks are exact
texts of integers, whatever their size (`Drawing.viewBox_figure`, `Drawing.pathData_figure`).  In a
layout that is less than a hundred thousand wide and high, all sizes have six digits
(`Entry.read_sizes_of_small`).
-/

namespace SyntaxDiagram

open Markup (attributeTexts attributeText)
open Number (IsBriefText)

/-! ### Attributes of figures -/

/-- The names of the attributes with a size. -/
def sizeNames (tag : String) : List String :=
  ([("svg", ["width", "height"]), ("rect", ["x", "y", "width", "height"]),
    ("text", ["x", "y"])].lookup tag).getD []

/-- The name of the attribute with the frame that is looked through. -/
def viewBoxNames (tag : String) : List String :=
  ([("svg", ["viewBox"])].lookup tag).getD []

/-- The name of the attribute with the path of a track. -/
def pathNames (tag : String) : List String :=
  ([("path", ["d"])].lookup tag).getD []

/-- An integer that can be written is written briefly, and it is not past all doubles. -/
theorem isBriefText_shown {n : Int} (h : (AttributeValue.number (.int n)).IsWritten) :
    IsBriefText n (AttributeValue.number (.int n)).shown ∧ |(n : ℚ)| < 2 ^ 1024 := by
  obtain ⟨text, hbrief, hshown⟩ := AttributeValue.exists_of_isWritten_number h
  rw [hshown]
  exact Number.isBriefText_int hbrief

/-- An integer that is not past the greatest double can be written. -/
theorem FitsDouble.isWritten {n : Int} (h : FitsDouble n) :
    (AttributeValue.number (.int n)).IsWritten := by
  obtain ⟨x, hx⟩ := Number.exists_toBinary64 h
  exact ⟨x.brief, mapError_eq_ok_iff.mpr (map_eq_ok_iff.mpr ⟨x, hx, rfl⟩)⟩

/-- If every size is read iff it has six digits, all are read iff all have six digits. -/
theorem map_readDecimal?_eq_iff {sizes : List ℚ} {texts : List String}
    (h : List.Forall₂ IsBriefText sizes texts) :
    texts.map readDecimal? = sizes.map some ↔ ∀ size ∈ sizes, SixDigits size := by
  induction h with
  | nil => simp
  | cons hbrief _ ih =>
    rw [List.map_cons, List.map_cons, List.cons.injEq, List.forall_mem_cons, ih, hbrief.exact_iff]

/-- Lists made member by member correspond when the parts for each member do. -/
theorem forall₂_flatMap {α β γ : Type} {R : β → γ → Prop} {xs : List α} {f : α → List β}
    {g : α → List γ} (h : ∀ x ∈ xs, List.Forall₂ R (f x) (g x)) :
    List.Forall₂ R (xs.flatMap f) (xs.flatMap g) := by
  induction xs with
  | nil => exact .nil
  | cons x xs ih =>
    rw [List.forall_mem_cons] at h
    exact List.rel_append h.1 (ih h.2)

/-- A connector can always be written, as it has texts alone for attributes. -/
theorem Connector.isWritten_toMarkup (radius : Int) (connector : Connector) :
    (connector.toMarkup radius).IsWritten := by
  unfold toMarkup
  rw [Markup.isWritten_leaf_iff, List.forall_mem_cons]
  refine ⟨AttributeValue.isWritten_text _, ?_⟩
  split
  · exact fun _ hfield => absurd hfield List.not_mem_nil
  · exact List.forall_mem_singleton.mpr (AttributeValue.isWritten_text _)

/-! ### Numbers of a label box -/

namespace Box

/-- The sizes that are written for a label box, at its rectangle and at its text; none are for other
boxes. -/
def sizes (baseline : Int) : Box Placement → List ℚ
  | .label frame _ _ =>
    [frame.place.x, (frame.place.y - frame.up : Int), frame.width, frame.height,
      frame.place.x + frame.width / 2, (frame.place.y + baseline : Int)]
  | _ => []

/-- A box does not reach to the left of the origin, nor further to the right than doubles do. -/
def InRange (box : Box Placement) : Prop :=
  0 ≤ box.frame.place.x ∧ 0 ≤ box.width ∧
    ((box.frame.place.x + box.width : Int) : ℚ) < 2 ^ 1024

variable {m : Metrics} {theme : Theme} {baseline : Int}

/-- The middle of a label is written briefly, though it is computed in doubles. -/
theorem isBriefText_labelMiddle {frame : Frame Placement} {x : Number}
    (hstart : 0 ≤ frame.place.x) (hwidth : 0 ≤ frame.width)
    (hend : ((frame.place.x + frame.width : Int) : ℚ) < 2 ^ 1024)
    (hx : labelMiddle frame = .ok x) (hwrite : (AttributeValue.number x).IsWritten) :
    IsBriefText (frame.place.x + frame.width / 2) (AttributeValue.number x).shown := by
  obtain ⟨text, hbrief, hshown⟩ := AttributeValue.exists_of_isWritten_number hwrite
  rw [labelMiddle, bind_eq_ok_iff] at hx
  obtain ⟨half, hhalf, hx⟩ := hx
  rw [hshown]
  exact Number.isBriefText_middle hstart hwidth hend hhalf hx hbrief

/-- The middle of a label can be written when its start and its width fit a double. -/
theorem exists_labelMiddle {frame : Frame Placement} (hstart : FitsDouble frame.place.x)
    (hwidth : FitsDouble frame.width) :
    ∃ x, labelMiddle frame = .ok x ∧ (AttributeValue.number x).IsWritten := by
  obtain ⟨half, hhalf⟩ := Number.exists_halfOfInt hwidth
  obtain ⟨start, hstart⟩ := Number.exists_toBinary64 hstart
  have hmiddle : (Number.int frame.place.x).add (.real half) = .ok (.real (start.add half)) := by
    show (Number.int frame.place.x).toBinary64 >>= _ = _
    rw [hstart]
    rfl
  exact ⟨.real (start.add half), bind_eq_ok_iff.mpr ⟨half, hhalf, hmiddle⟩, _, rfl⟩

/-! ### Attributes of a label box -/

/-- The sizes at the rectangle of a label: where it is and how large it is. -/
theorem attributeTexts_labelRectangle (frame : Frame Placement) (kind : LabelKind) :
    attributeTexts sizeNames (labelRectangle frame kind).pieces =
      [(AttributeValue.number (.int frame.place.x)).shown,
        (AttributeValue.number (.int (frame.place.y - frame.up))).shown,
        (AttributeValue.number (.int frame.width)).shown,
        (AttributeValue.number (.int frame.height)).shown] := by
  unfold labelRectangle
  rw [Markup.attributeTexts_leaf]
  rfl

/-- The rectangle of a label is written iff its four sizes are. -/
theorem isWritten_labelRectangle_iff {frame : Frame Placement} {kind : LabelKind} :
    (labelRectangle frame kind).IsWritten ↔
      (AttributeValue.number (.int frame.place.x)).IsWritten ∧
        (AttributeValue.number (.int (frame.place.y - frame.up))).IsWritten ∧
        (AttributeValue.number (.int frame.width)).IsWritten ∧
        (AttributeValue.number (.int frame.height)).IsWritten := by
  have hten : (AttributeValue.number (.int 10)).IsWritten := ⟨_, rfl⟩
  unfold labelRectangle
  rw [Markup.isWritten_leaf_iff, List.forall_mem_append, and_iff_left]
  · simp only [List.forall_mem_cons, List.not_mem_nil, false_imp_iff, implies_true, and_true]
  · -- the round corners of a terminal are written in any case
    cases kind with
    | terminal => exact List.forall_mem_cons.mpr ⟨hten, List.forall_mem_singleton.mpr hten⟩
    | rule target => exact fun _ hfield => absurd hfield List.not_mem_nil

/-- The text of a label box, as a link or not. -/
def caption (kind : LabelKind) (x y : Number) (text : String) : Markup :=
  if isLinked kind then labelLink x y text else labelText x y text

/-- The attributes of a label's text are the same in a link or not. -/
theorem attributeTexts_caption {names : String → List String} (h : names "a" = [])
    (kind : LabelKind) (x y : Number) (text : String) :
    attributeTexts names (caption kind x y text).pieces =
      (names "text").map (attributeText [("x", .number x), ("y", .number y)]) := by
  have htext : attributeTexts names (labelText x y text).pieces =
      (names "text").map (attributeText [("x", .number x), ("y", .number y)]) :=
    Markup.attributeTexts_withText ..
  unfold caption
  split
  · rw [labelLink, Markup.attributeTexts_pieces_element, List.flatMap_singleton, h, List.map_nil,
      List.nil_append, htext]
  · exact htext

/-- A label's text is written iff both its coordinates are. -/
theorem isWritten_caption_iff {kind : LabelKind} {x y : Number} {text : String} :
    (caption kind x y text).IsWritten ↔
      (AttributeValue.number x).IsWritten ∧ (AttributeValue.number y).IsWritten := by
  have htext : (labelText x y text).IsWritten ↔
      (AttributeValue.number x).IsWritten ∧ (AttributeValue.number y).IsWritten := by
    rw [labelText, Markup.isWritten_withText_iff, List.forall_mem_cons, List.forall_mem_singleton]
  unfold caption
  split
  · rw [labelLink, Markup.isWritten_element_iff, List.forall_mem_singleton,
      List.forall_mem_singleton, and_iff_right (AttributeValue.isWritten_text _), htext]
  · exact htext

/-! ### Sizes of boxes -/

/-- The sizes of a box stand in what it draws itself, in order and briefly. -/
theorem forall₂_isBriefText_own (hbaseline : theme.textBaseline = .int baseline)
    {box : Box Placement} {own : List Markup} (h : box.ownMarkup theme = .ok own)
    (hwrite : ∀ tree ∈ own, tree.IsWritten) (hrange : box.InRange) :
    List.Forall₂ IsBriefText (box.sizes baseline)
      (own.flatMap fun tree => attributeTexts sizeNames tree.pieces) := by
  cases box with
  | label frame kind text =>
    obtain ⟨x, y, hx, hy, rfl⟩ := exists_of_labelMarkup h
    obtain ⟨hstart, hwidth, hend⟩ := hrange
    rw [hbaseline] at hy
    obtain rfl := Except.ok.inj hy
    rw [List.forall_mem_cons, List.forall_mem_singleton, ← caption, isWritten_labelRectangle_iff,
      isWritten_caption_iff] at hwrite
    obtain ⟨⟨hleft, htop, hwidthWrite, hheight⟩, hmiddle, hline⟩ := hwrite
    rw [List.flatMap_cons, List.flatMap_singleton, ← caption, attributeTexts_caption rfl,
      attributeTexts_labelRectangle]
    exact .cons (isBriefText_shown hleft).1 (.cons (isBriefText_shown htop).1
      (.cons (isBriefText_shown hwidthWrite).1 (.cons (isBriefText_shown hheight).1
        (.cons (isBriefText_labelMiddle hstart hwidth hend (mapError_eq_ok_iff.mp hx) hmiddle)
          (.cons (isBriefText_shown hline).1 .nil)))))
  | _ =>
    obtain rfl := Except.ok.inj h
    exact .nil

/-- What a label box holds is written if its sizes are not past the greatest double. -/
theorem exists_ownMarkup (hbaseline : theme.textBaseline = .int baseline) {box : Box Placement}
    (hfits : ∀ size ∈ box.sizes baseline, FitsDouble size) :
    ∃ own, box.ownMarkup theme = .ok own ∧ ∀ tree ∈ own, tree.IsWritten := by
  cases box with
  | label frame kind text =>
    simp only [sizes, List.forall_mem_cons] at hfits
    obtain ⟨hleft, htop, hwidth, hheight, -, hline, -⟩ := hfits
    obtain ⟨x, hx, hmiddle⟩ := exists_labelMiddle hleft hwidth
    have hy : Overflow.lift ((Number.int frame.place.y).add theme.textBaseline) =
        .ok (.int (frame.place.y + baseline)) := by
      rw [hbaseline]
      rfl
    refine ⟨_, labelMarkup_eq_ok (mapError_eq_ok_iff.mpr hx) hy kind text, ?_⟩
    rw [List.forall_mem_cons, List.forall_mem_singleton, ← caption, isWritten_labelRectangle_iff,
      isWritten_caption_iff]
    exact ⟨⟨hleft.isWritten, htop.isWritten, hwidth.isWritten, hheight.isWritten⟩, hmiddle,
      hline.isWritten⟩
  | _ => exact ⟨[], rfl, fun _ htree => absurd htree List.not_mem_nil⟩

/-- Connectors have none of the attributes that only other tags have. -/
theorem attributeTexts_tracks {names : String → List String} (h : names "path" = [])
    (radius : Int) (connectors : List Connector) :
    ((connectors.map (·.toMarkup radius)).flatMap fun tree => attributeTexts names tree.pieces) =
      [] := by
  simp only [List.flatMap_map, Connector.toMarkup, Markup.attributeTexts_leaf, h, List.map_nil,
    List.flatMap_eq_nil_iff, implies_true]

/-- A size in the group of a box is read back iff it has six digits. -/
theorem forall₂_isBriefText_toMarkup (hbaseline : theme.textBaseline = .int baseline)
    {box : Box Placement} {tree : Markup} (h : box.toMarkup m theme = .ok tree)
    (hwrite : tree.IsWritten) (hrange : ∀ b ∈ box.boxes, b.InRange) :
    List.Forall₂ IsBriefText (box.boxes.flatMap (sizes baseline))
      (attributeTexts sizeNames tree.pieces) := by
  induction box using Box.induction generalizing tree with
  | step box ih =>
    obtain ⟨own, groups, hown, hgroups, rfl⟩ := exists_of_toMarkup h
    have hall := (Markup.isWritten_element_iff.mp hwrite).2
    rw [List.forall_mem_append, List.forall_mem_append] at hall
    obtain ⟨⟨hownWrite, -⟩, hgroupsWrite⟩ := hall
    rw [boxes_eq_cons, List.forall_mem_cons, List.forall_mem_flatMap] at hrange
    obtain ⟨pairs, hpairs, rfl, hpair⟩ := exists_pairs_of_mapM_eq_ok hgroups
    -- one tree for each child, so the sizes of all children follow one another
    have hchildren : List.Forall₂ IsBriefText
        (box.children.flatMap fun child => child.boxes.flatMap (sizes baseline))
        ((pairs.map Prod.snd).flatMap fun tree => attributeTexts sizeNames tree.pieces) := by
      rw [← hpairs, List.flatMap_map, List.flatMap_map]
      refine forall₂_flatMap fun pair hmem => ?_
      have hchild : pair.1 ∈ box.children := hpairs ▸ List.mem_map_of_mem hmem
      exact ih pair.1 hchild (hpair pair hmem)
        (hgroupsWrite pair.2 (List.mem_map_of_mem hmem)) (hrange.2 pair.1 hchild)
    rw [boxes_eq_cons, List.flatMap_cons, List.flatMap_assoc, Markup.attributeTexts_pieces_element,
      List.flatMap_append, List.flatMap_append, trackMarkup, attributeTexts_tracks rfl,
      List.append_nil]
    exact List.rel_append (forall₂_isBriefText_own hbaseline hown hownWrite hrange.1) hchildren

theorem isWritten_groupAttributes (box : Box Placement) :
    ∀ field ∈ box.groupAttributes, field.2.IsWritten := by
  rw [groupAttributes, List.forall_mem_append, List.forall_mem_map, List.forall_mem_singleton]
  exact ⟨fun _ _ => AttributeValue.isWritten_text _, AttributeValue.isWritten_text _⟩

/-- The group of a box is written if no size in it is past the greatest double. -/
theorem exists_toMarkup (hbaseline : theme.textBaseline = .int baseline) {box : Box Placement}
    (hfits : ∀ size ∈ box.boxes.flatMap (sizes baseline), FitsDouble size) :
    ∃ tree, box.toMarkup m theme = .ok tree ∧ tree.IsWritten := by
  induction box using Box.induction with
  | step box ih =>
    rw [boxes_eq_cons, List.flatMap_cons, List.forall_mem_append, List.flatMap_assoc,
      List.forall_mem_flatMap] at hfits
    obtain ⟨own, hown, hownWrite⟩ := exists_ownMarkup hbaseline hfits.1
    have hgroup := fun child hchild => ih child hchild (hfits.2 child hchild)
    obtain ⟨groups, hgroups⟩ := exists_mapM_eq_ok_iff.mpr fun child hchild =>
      (hgroup child hchild).imp fun _ => And.left
    refine ⟨.element "g" box.groupAttributes
      (own ++ trackMarkup m.arcRadius box.frame ++ groups), ?_, ?_⟩
    · rw [toMarkup_eq_bind, hown, hgroups]
      rfl
    · rw [Markup.isWritten_element_iff, List.forall_mem_append, List.forall_mem_append]
      have htracks : ∀ tree ∈ trackMarkup m.arcRadius box.frame, tree.IsWritten :=
        List.forall_mem_map.mpr fun c _ => c.isWritten_toMarkup _
      refine ⟨isWritten_groupAttributes box, ⟨hownWrite, htracks⟩, fun tree htree => ?_⟩
      obtain ⟨child, hchild, htoMarkup⟩ := exists_of_mem_of_mapM_eq_ok hgroups htree
      obtain ⟨_, htoMarkup', hwrite⟩ := hgroup child hchild
      rw [htoMarkup] at htoMarkup'
      exact Except.ok.inj htoMarkup' ▸ hwrite

/-- What a box draws itself has none of the attributes that only tracks have. -/
theorem attributeTexts_own {names : String → List String}
    (hnames : ∀ tag ∈ ["a", "g", "rect", "text"], names tag = []) {box : Box Placement}
    {own : List Markup} (h : box.ownMarkup theme = .ok own) :
    (own.flatMap fun tree => attributeTexts names tree.pieces) = [] := by
  cases box with
  | label frame kind text =>
    obtain ⟨x, y, -, -, rfl⟩ := exists_of_labelMarkup h
    have hrectangle : attributeTexts names (labelRectangle frame kind).pieces = [] := by
      unfold labelRectangle
      rw [Markup.attributeTexts_leaf, hnames "rect" (by decide), List.map_nil]
    rw [List.flatMap_cons, List.flatMap_singleton, hrectangle, List.nil_append, ← caption,
      attributeTexts_caption (hnames "a" (by decide)), hnames "text" (by decide), List.map_nil]
  | _ =>
    obtain rfl := Except.ok.inj h
    rfl

/-- The connectors of a tree are its root's own, then those of each child. -/
theorem connectors_eq_append (box : Box Placement) :
    box.connectors = box.frame.place.connectors ++ box.children.flatMap connectors := by
  rw [connectors, boxes_eq_cons, List.flatMap_cons, List.flatMap_assoc]
  rfl

/-- Attributes that only tracks have stand in the group of a box as in its connectors, in order. -/
theorem attributeTexts_toMarkup {names : String → List String}
    (hnames : ∀ tag ∈ ["a", "g", "rect", "text"], names tag = []) {box : Box Placement}
    {tree : Markup} (h : box.toMarkup m theme = .ok tree) :
    attributeTexts names tree.pieces =
      box.connectors.flatMap fun c => attributeTexts names (c.toMarkup m.arcRadius).pieces := by
  induction box using Box.induction generalizing tree with
  | step box ih =>
    obtain ⟨own, groups, hown, hgroups, rfl⟩ := exists_of_toMarkup h
    have hchildren : (groups.flatMap fun group => attributeTexts names group.pieces) =
        box.children.flatMap fun child => child.connectors.flatMap fun c =>
          attributeTexts names (c.toMarkup m.arcRadius).pieces := by
      rw [List.flatMap_def, List.flatMap_def,
        map_eq_map_of_mapM_eq_ok hgroups fun child hchild group hgroup => ih child hchild hgroup]
    rw [Markup.attributeTexts_pieces_element, hnames "g" (by decide), List.map_nil,
      List.nil_append, List.flatMap_append, List.flatMap_append, attributeTexts_own hnames hown,
      List.nil_append, hchildren, trackMarkup, List.flatMap_map, connectors_eq_append,
      List.flatMap_append, List.flatMap_assoc]

end Box

/-! ### Sizes of drawings -/

namespace Drawing

variable {m : Metrics} {theme : Theme} {baseline : Int} {d : Drawing} {tree : Markup}
  {text : String}

/-- The sizes that are written for a drawing. -/
def sizes (baseline : Int) (d : Drawing) : List ℚ :=
  [(d.diagram.width : ℚ), (d.diagram.height : ℚ)] ++ d.boxes.flatMap (Box.sizes baseline)

/-- The path of the marker at one end of a diagram. -/
def terminusPath (x y : Int) : String :=
  "M " ++ toString x ++ " " ++ toString (y - 10) ++ " v 20 m 10 -20 v 20"

/-- The attributes of a figure are those of its outermost tag, of the markers, of the connectors at
the ends, and of the group of the root. -/
theorem attributeTexts_figure {names : String → List String} (hg : names "g" = [])
    (h : d.figure m theme = .ok tree) :
    ∃ root, d.diagram.root.toMarkup m theme = .ok root ∧
      attributeTexts names tree.pieces =
        (names "svg").map (attributeText (d.figureAttributes theme)) ++
          (attributeTexts names (terminusMarker d.start.1 d.start.2).pieces ++
            (d.termini.flatMap fun c => attributeTexts names (c.toMarkup m.arcRadius).pieces) ++
            (attributeTexts names root.pieces ++
              attributeTexts names (terminusMarker (d.finish.1 - 10) d.finish.2).pieces)) := by
  obtain ⟨content, hcontent, rfl⟩ := exists_of_figure h
  obtain ⟨root, hroot, rfl⟩ := exists_of_content hcontent
  refine ⟨root, hroot, ?_⟩
  rw [Markup.attributeTexts_pieces_element, List.flatMap_singleton,
    Markup.attributeTexts_pieces_element, hg, List.map_nil, List.nil_append, List.flatMap_append,
    List.flatMap_cons, List.flatMap_map, List.flatMap_cons, List.flatMap_singleton]

theorem isWritten_terminusMarker (x y : Int) : (terminusMarker x y).IsWritten :=
  Markup.isWritten_leaf_iff.mpr (List.forall_mem_singleton.mpr (AttributeValue.isWritten_text _))

/-- A figure is written iff the numbers at its outermost tag and the group of the root are. -/
theorem isWritten_figure_iff {root : Markup} (hroot : d.diagram.root.toMarkup m theme = .ok root)
    (h : d.figure m theme = .ok tree) :
    tree.IsWritten ↔ ((AttributeValue.number (.int d.diagram.width)).IsWritten ∧
      (AttributeValue.number (.int d.diagram.height)).IsWritten) ∧ root.IsWritten := by
  obtain ⟨content, hcontent, rfl⟩ := exists_of_figure h
  obtain ⟨root', hroot', rfl⟩ := exists_of_content hcontent
  rw [hroot] at hroot'
  obtain rfl := Except.ok.inj hroot'
  have hshift : ∀ field ∈ if theme.oddStroke then
      [("transform", AttributeValue.text "translate(.5 .5)")] else [], field.2.IsWritten := by
    split
    · exact List.forall_mem_singleton.mpr (AttributeValue.isWritten_text _)
    · exact fun _ hfield => absurd hfield List.not_mem_nil
  rw [Markup.isWritten_element_iff, List.forall_mem_singleton, Markup.isWritten_element_iff,
    and_iff_right hshift, List.forall_mem_append, List.forall_mem_cons, List.forall_mem_map,
    List.forall_mem_cons, List.forall_mem_singleton, figureAttributes]
  simp only [List.forall_mem_cons, List.not_mem_nil, false_imp_iff, implies_true, and_true,
    AttributeValue.isWritten_text, isWritten_terminusMarker, Connector.isWritten_toMarkup, true_and]

/-- A size in a figure is read back iff it has six digits. -/
theorem forall₂_isBriefText_figure (hbaseline : theme.textBaseline = .int baseline)
    (hrange : |(d.diagram.width : ℚ)| < 2 ^ 1024 → ∀ b ∈ d.boxes, b.InRange)
    (h : d.figure m theme = .ok tree) (hwrite : tree.IsWritten) :
    List.Forall₂ IsBriefText (d.sizes baseline) (attributeTexts sizeNames tree.pieces) := by
  have hgroup : sizeNames "g" = [] := rfl
  have hpath : sizeNames "path" = [] := rfl
  obtain ⟨root, hroot, htexts⟩ := attributeTexts_figure hgroup h
  obtain ⟨⟨hwidth, hheight⟩, hrootWrite⟩ := (isWritten_figure_iff hroot h).mp hwrite
  obtain ⟨hwidth, hbound⟩ := isBriefText_shown hwidth
  have hown : List.Forall₂ IsBriefText [(d.diagram.width : ℚ), (d.diagram.height : ℚ)]
      ((sizeNames "svg").map (attributeText (d.figureAttributes theme))) :=
    .cons hwidth (.cons (isBriefText_shown hheight).1 .nil)
  have hboxes := Box.forall₂_isBriefText_toMarkup hbaseline hroot hrootWrite (hrange hbound)
  have hmarker (x y : Int) : attributeTexts sizeNames (terminusMarker x y).pieces = [] :=
    Markup.attributeTexts_leaf ..
  have htermini := Box.attributeTexts_tracks hpath m.arcRadius d.termini
  rw [List.flatMap_map] at htermini
  rw [htexts, hmarker, hmarker, htermini, List.append_nil, List.append_nil, List.nil_append]
  exact List.rel_append hown hboxes

/-- A figure is written if no size of the drawing is past the greatest double. -/
theorem exists_figure (hbaseline : theme.textBaseline = .int baseline)
    (hfits : ∀ size ∈ d.sizes baseline, FitsDouble size) :
    ∃ tree, d.figure m theme = .ok tree ∧ tree.IsWritten := by
  rw [sizes, List.forall_mem_append, List.forall_mem_cons, List.forall_mem_singleton] at hfits
  obtain ⟨⟨hwidth, hheight⟩, hboxes⟩ := hfits
  obtain ⟨root, hroot, hwrite⟩ := Box.exists_toMarkup (m := m) hbaseline hboxes
  obtain ⟨tree, htree⟩ : ∃ tree, d.figure m theme = .ok tree := by
    rw [figure, content, hroot]
    exact ⟨_, rfl⟩
  exact ⟨tree, htree,
    (isWritten_figure_iff hroot htree).mpr ⟨⟨hwidth.isWritten, hheight.isWritten⟩, hwrite⟩⟩

/-- Attributes that only the outermost tag and tracks have, in order. -/
theorem attributeTexts_figure_of_tracks {names : String → List String}
    (hnames : ∀ tag ∈ ["a", "g", "rect", "text"], names tag = [])
    (h : d.figure m theme = .ok tree) :
    attributeTexts names tree.pieces =
      (names "svg").map (attributeText (d.figureAttributes theme)) ++
        (attributeTexts names (terminusMarker d.start.1 d.start.2).pieces ++
          (d.connectors.flatMap fun c => attributeTexts names (c.toMarkup m.arcRadius).pieces) ++
          attributeTexts names (terminusMarker (d.finish.1 - 10) d.finish.2).pieces) := by
  obtain ⟨root, hroot, htexts⟩ := attributeTexts_figure (hnames "g" (by decide)) h
  rw [htexts, Box.attributeTexts_toMarkup hnames hroot, connectors, List.flatMap_append]
  simp only [List.append_assoc]

/-- The frame that is looked through is as large as the drawing. -/
theorem viewBox_figure (h : d.figure m theme = .ok tree) :
    attributeTexts viewBoxNames tree.pieces =
      ["0 0 " ++ toString d.diagram.width ++ " " ++ toString d.diagram.height] := by
  have hleaf (attributes : List (String × AttributeValue)) :
      attributeTexts viewBoxNames (Markup.leaf "path" attributes).pieces = [] :=
    Markup.attributeTexts_leaf ..
  have hconnectors : (d.connectors.flatMap fun c =>
      attributeTexts viewBoxNames (c.toMarkup m.arcRadius).pieces) = [] :=
    List.flatMap_eq_nil_iff.mpr fun c _ => hleaf _
  rw [attributeTexts_figure_of_tracks (by decide) h, terminusMarker, terminusMarker, hleaf, hleaf,
    hconnectors]
  rfl

/-- The tracks of a figure are the markers at its ends and the connectors, in order. -/
theorem pathData_figure (h : d.figure m theme = .ok tree) :
    attributeTexts pathNames tree.pieces =
      terminusPath d.start.1 d.start.2 :: d.connectors.map (·.pathData m.arcRadius) ++
        [terminusPath (d.finish.1 - 10) d.finish.2] := by
  have hmarker (x y : Int) :
      attributeTexts pathNames (terminusMarker x y).pieces = [terminusPath x y] :=
    Markup.attributeTexts_leaf ..
  have hconnectors : (d.connectors.flatMap fun c =>
      attributeTexts pathNames (c.toMarkup m.arcRadius).pieces) =
        d.connectors.map (·.pathData m.arcRadius) := by
    rw [List.map_eq_flatMap]
    exact List.flatMap_congr fun c _ => Markup.attributeTexts_leaf ..
  rw [attributeTexts_figure_of_tracks (by decide) h, hmarker, hmarker, hconnectors]
  rfl

end Drawing

/-! ### Sizes of layouts -/

namespace Entry

variable {m : Metrics} {measure : Measure} {theme : Theme} {baseline : Int} {entry : Entry}
  {d : Drawing} {tree : Markup} {text : String}

theorem padding_layout (h : entry.layout m measure = .ok d) : d.diagram.padding = 20 := by
  obtain ⟨root, -, rfl⟩ := exists_box_of_layout h
  rfl

/-- The boxes of a layout are inside of the blank space around it. -/
theorem subset_layout (hm : m.Nonneg) (h : entry.layout m measure = .ok d) {b : Box Placement}
    (hb : b ∈ d.boxes) :
    20 ≤ b.frame.place.x ∧ b.frame.place.x + b.width ≤ d.diagram.width - 20 ∧
      20 ≤ b.frame.place.y - b.up ∧ b.frame.place.y + b.down ≤ d.diagram.height - 20 := by
  have hsubset := (contained_layout hm h).box_subset b hb
  rwa [Rect.subset_iff, Drawing.area, padding_layout h] at hsubset

/-- In a layout that is not wider than doubles reach, all boxes are in range. -/
theorem inRange_layout (hm : m.Nonneg) (h : entry.layout m measure = .ok d)
    (hwidth : |(d.diagram.width : ℚ)| < 2 ^ 1024) : ∀ b ∈ d.boxes, b.InRange := by
  intro b hb
  obtain ⟨hleft, hright, -⟩ := subset_layout hm h hb
  have hend : b.frame.place.x + b.width ≤ d.diagram.width := by omega
  refine ⟨by omega, ((contained_layout hm h).sizes_nonneg b hb).1, ?_⟩
  exact (Int.cast_le.mpr hend).trans_lt ((le_abs_self _).trans_lt hwidth)

/-- The text of the figure of a layout is scanned, and its sizes are the ones of the layout. -/
theorem texts_figure (hm : m.Nonneg) (hbaseline : theme.textBaseline = .int baseline)
    (hlayout : entry.layout m measure = .ok d) (hfigure : d.figure m theme = .ok tree)
    (hwrite : tree.write = .ok text) :
    Markup.scan text = some tree.pieces ∧
      List.Forall₂ IsBriefText (d.sizes baseline) (attributeTexts sizeNames tree.pieces) :=
  ⟨Markup.scan_eq_of_scans (Markup.scans_write (Drawing.regular_figure hfigure) hwrite),
    Drawing.forall₂_isBriefText_figure hbaseline (inRange_layout hm hlayout) hfigure
      ⟨text, hwrite⟩⟩

/-- In a layout that is less than a hundred thousand wide and high, all sizes are halves of integers
and less than a hundred thousand. -/
theorem exists_half_of_mem_sizes (hm : m.Nonneg) (hbaseline : |baseline| ≤ 20)
    (h : entry.layout m measure = .ok d) (hwidth : d.diagram.width < 10 ^ 5)
    (hheight : d.diagram.height < 10 ^ 5) :
    ∀ size ∈ d.sizes baseline, ∃ k : Int, size = k / 2 ∧ |k| < 2 * 10 ^ 5 := by
  -- an integer is half of an even one
  have hinteger {n : Int} (hlow : 0 ≤ n) (hhigh : n < 10 ^ 5) :
      ∃ k : Int, (n : ℚ) = k / 2 ∧ |k| < 2 * 10 ^ 5 := by
    refine ⟨2 * n, by push_cast; ring, ?_⟩
    rw [abs_of_nonneg (by omega)]
    omega
  -- all boxes are within the drawing, and this is small
  have hstart := (contained_layout hm h).start_mem
  simp only [Rect.mem_iff, Drawing.area, padding_layout h] at hstart
  obtain ⟨hleft, hright, htop, hbottom⟩ := hstart
  rw [abs_le] at hbaseline
  rw [Drawing.sizes, List.forall_mem_append, List.forall_mem_cons, List.forall_mem_singleton,
    List.forall_mem_flatMap]
  refine ⟨⟨hinteger (by omega) hwidth, hinteger (by omega) hheight⟩, fun box hbox => ?_⟩
  cases box with
  | label frame kind text =>
    obtain ⟨hw, hup, hdown⟩ := (contained_layout hm h).sizes_nonneg _ hbox
    obtain ⟨hx, hend, hy, hfloor⟩ := subset_layout hm h hbox
    simp only [Box.width, Box.up, Box.down, Box.frame] at hw hup hdown hx hend hy hfloor
    simp only [Box.sizes, List.forall_mem_cons, List.not_mem_nil, false_imp_iff, implies_true,
      and_true]
    refine ⟨hinteger (by omega) (by omega), hinteger (by omega) (by omega),
      hinteger (by omega) (by omega), hinteger ?_ ?_, ⟨2 * frame.place.x + frame.width, ?_, ?_⟩,
      hinteger (by omega) (by omega)⟩
    · rw [Frame.height]
      omega
    · rw [Frame.height]
      omega
    · -- the middle of a label need not be an integer
      push_cast
      ring
    · rw [abs_of_nonneg (by omega)]
      omega
  | _ => exact fun _ hsize => absurd hsize List.not_mem_nil

/-- In the text of the figure of such a layout, all sizes are read back. -/
theorem read_sizes_of_small (hm : m.Nonneg) (hbaseline : theme.textBaseline = .int baseline)
    (hbound : |baseline| ≤ 20) (hlayout : entry.layout m measure = .ok d)
    (hwidth : d.diagram.width < 10 ^ 5) (hheight : d.diagram.height < 10 ^ 5) :
    ∃ tree text, d.figure m theme = .ok tree ∧ tree.write = .ok text ∧
      ∃ pieces, Markup.scan text = some pieces ∧
        (attributeTexts sizeNames pieces).map readDecimal? = (d.sizes baseline).map some := by
  have hhalf := exists_half_of_mem_sizes hm hbound hlayout hwidth hheight
  obtain ⟨tree, hfigure, text, hwrite⟩ := Drawing.exists_figure (m := m) hbaseline
    fun size hsize => by
      obtain ⟨k, rfl, hk⟩ := hhalf size hsize
      exact fitsDouble_of_half hk
  obtain ⟨hscan, hsizes⟩ := texts_figure hm hbaseline hlayout hfigure hwrite
  refine ⟨tree, text, hfigure, hwrite, tree.pieces, hscan,
    (map_readDecimal?_eq_iff hsizes).mpr fun size hsize => ?_⟩
  obtain ⟨k, rfl, hk⟩ := hhalf size hsize
  exact sixDigits_of_half hk

/-- The figure of a layout is written if no size is past the greatest double.  In its text, the
sizes of the drawing and of its label boxes are read back, one by one and all together, iff they
have six significant digits, and those that have not are off by a hundred-thousandth at most.  The
frame and the tracks are exact. -/
theorem sizes_figure (hm : m.Nonneg) (hbaseline : theme.textBaseline = .int baseline)
    (hlayout : entry.layout m measure = .ok d) :
    ((∀ size ∈ d.sizes baseline, FitsDouble size) →
        ∃ tree text, d.figure m theme = .ok tree ∧ tree.write = .ok text) ∧
      ∀ tree text, d.figure m theme = .ok tree → tree.write = .ok text →
        ∃ pieces, Markup.scan text = some pieces ∧
          List.Forall₂ IsBriefText (d.sizes baseline) (attributeTexts sizeNames pieces) ∧
          ((attributeTexts sizeNames pieces).map readDecimal? = (d.sizes baseline).map some ↔
            ∀ size ∈ d.sizes baseline, SixDigits size) ∧
          attributeTexts viewBoxNames pieces =
            ["0 0 " ++ toString d.diagram.width ++ " " ++ toString d.diagram.height] ∧
          attributeTexts pathNames pieces =
            Drawing.terminusPath d.start.1 d.start.2 :: d.connectors.map (·.pathData m.arcRadius) ++
              [Drawing.terminusPath (d.finish.1 - 10) d.finish.2] := by
  refine ⟨fun hfits => ?_, fun tree text hfigure hwrite => ?_⟩
  · obtain ⟨tree, htree, text, htext⟩ := Drawing.exists_figure (m := m) hbaseline hfits
    exact ⟨tree, text, htree, htext⟩
  · obtain ⟨hscan, hsizes⟩ := texts_figure hm hbaseline hlayout hfigure hwrite
    exact ⟨tree.pieces, hscan, hsizes, map_readDecimal?_eq_iff hsizes,
      Drawing.viewBox_figure hfigure, Drawing.pathData_figure hfigure⟩

theorem sizes_figure_sample : Metrics.standard.Nonneg ∧
    Theme.standard.textBaseline = .int 4 ∧
    ∃ d, sample.layout .standard (.const (some (.int 9))) = .ok d ∧
      ∃ tree text pieces, d.figure .standard .standard = .ok tree ∧ tree.write = .ok text ∧
        Markup.scan text = some pieces ∧
        (attributeTexts sizeNames pieces).map readDecimal? = (d.sizes 4).map some := by
  have hm := Metrics.spaced_standard.toNonneg
  have hbaseline : Theme.standard.textBaseline = .int 4 := rfl
  have hlayout : sample.layout .standard (.const (some (.int 9))) = .ok _ := rfl
  have hbound : |(4 : Int)| ≤ 20 := by decide
  have hhalf := exists_half_of_mem_sizes hm hbound hlayout (by decide) (by decide)
  obtain ⟨hwritten, hread⟩ := sizes_figure hm hbaseline hlayout
  obtain ⟨tree, text, hfigure, hwrite⟩ := hwritten fun size hsize => by
    obtain ⟨k, rfl, hk⟩ := hhalf size hsize
    exact fitsDouble_of_half hk
  obtain ⟨pieces, hscan, -, hiff, -⟩ := hread tree text hfigure hwrite
  refine ⟨hm, hbaseline, _, hlayout, tree, text, pieces, hfigure, hwrite, hscan,
    hiff.mpr fun size hsize => ?_⟩
  obtain ⟨k, rfl, hk⟩ := hhalf size hsize
  exact sixDigits_of_half hk

/-- A width of 1000101, of a layout with a label that is more than a million wide, is not read back
from the figure. -/
theorem not_read_sizes_wide : ∃ d tree text pieces,
    Entry.layout .standard (.const (some (.int 1000001))) ⟨.rule, "wide", "", [[.literal "x"]]⟩ =
        .ok d ∧
      d.figure .standard .standard = .ok tree ∧ tree.write = .ok text ∧
      Markup.scan text = some pieces ∧
      (attributeTexts sizeNames pieces).map readDecimal? ≠ (d.sizes 4).map some := by
  obtain ⟨d, hlayout, hwidth, tree, text, hfigure, hwrite⟩ : ∃ d,
      Entry.layout .standard (.const (some (.int 1000001)))
          ⟨.rule, "wide", "", [[.literal "x"]]⟩ = .ok d ∧
        d.diagram.width = 1000101 ∧
        ∃ tree text, d.figure .standard .standard = .ok tree ∧ tree.write = .ok text :=
    ⟨_, rfl, rfl, exists_of_isSome_bind (by decide +kernel)⟩
  have hbaseline : Theme.standard.textBaseline = .int 4 := rfl
  obtain ⟨hscan, hsizes⟩ :=
    texts_figure Metrics.spaced_standard.toNonneg hbaseline hlayout hfigure hwrite
  refine ⟨d, tree, text, tree.pieces, hlayout, hfigure, hwrite, hscan, fun heq => ?_⟩
  have hsix := (map_readDecimal?_eq_iff hsizes).mp heq d.diagram.width (List.mem_cons_self ..)
  rw [hwidth] at hsix
  have hbelow : ((100010 : Nat) : ℚ) * 10 ^ (1 : Int) < ((1000101 : Int) : ℚ) := by norm_num
  have habove : ((1000101 : Int) : ℚ) < ((100010 : Nat) + 1) * 10 ^ (1 : Int) := by norm_num
  exact not_sixDigits_of_between (by decide) hbelow habove hsix

end Entry

end SyntaxDiagram
