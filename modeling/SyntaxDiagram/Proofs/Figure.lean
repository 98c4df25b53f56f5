import SyntaxDiagram.Figure
import SyntaxDiagram.Proofs.Box.Captions
import SyntaxDiagram.Proofs.Markup.Scan

/-!
# Figures as markup

The figure of a drawing is a regular tree (`Drawing.regular_figure`), so that its text is scanned as
its pieces.  The tags in it are those of groups, paths and shapes, and one link for each caption
that names a rule or a terminal, in order (`FindsLinks.collect_figure`).
-/

namespace SyntaxDiagram

/-! ### The usual style sheet -/

/-- No tag starts in the usual style sheet. -/
theorem angle_notMem_standardStyle : '<' ∉ standardStyle.toList := by
  unfold standardStyle
  -- line by line, from the last one up to the first
  iterate 18 refine notMem_toList_append ?_ (by decide +kernel)
  decide +kernel

namespace Box

variable {m : Metrics} {theme : Theme}

/-! ### The group of a box -/

/-- The rectangle and the text of a label box; other boxes have none of their own. -/
def ownMarkup (theme : Theme) : Box Placement → Except Fault (List Markup)
  | .label frame kind text => labelMarkup theme frame kind text
  | _ => .ok []

theorem toMarkupList_eq_mapM (boxes : List (Box Placement)) :
    toMarkupList m theme boxes = boxes.mapM (toMarkup m theme) := by
  induction boxes with
  | nil => rfl
  | cons box rest ih => rw [toMarkupList, List.mapM_cons, ih]

/-- The group of a box holds its own markup, its connectors and the groups of its children. -/
theorem toMarkup_eq_bind (box : Box Placement) :
    box.toMarkup m theme = do
      let own ← box.ownMarkup theme
      let groups ← box.children.mapM (toMarkup m theme)
      return .element "g" box.groupAttributes
        (own ++ trackMarkup m.arcRadius box.frame ++ groups) := by
  cases box with
  | label frame kind text =>
    rw [toMarkup, ownMarkup, children]
    simp only [List.mapM_nil, pure_bind, List.append_nil]
    rfl
  | line frame role items =>
    rw [toMarkup, toMarkupList_eq_mapM]
    rfl
  | branch frame mainIndex separators offsets items =>
    rw [toMarkup, toMarkupList_eq_mapM]
    rfl
  | loop frame offset item =>
    rw [toMarkup, children, List.mapM_cons]
    simp only [List.mapM_nil, pure_bind, bind_assoc]
    rfl

/-- The group of a box that is written: its own markup, its tracks, and the groups of its
children. -/
theorem exists_of_toMarkup {box : Box Placement} {tree : Markup}
    (h : box.toMarkup m theme = .ok tree) :
    ∃ own groups, box.ownMarkup theme = .ok own ∧
      box.children.mapM (toMarkup m theme) = .ok groups ∧
      tree = .element "g" box.groupAttributes
        (own ++ trackMarkup m.arcRadius box.frame ++ groups) := by
  rw [toMarkup_eq_bind, bind_eq_ok_iff] at h
  obtain ⟨own, hown, h⟩ := h
  obtain ⟨groups, hgroups, h⟩ := bind_eq_ok_iff.mp h
  exact ⟨own, groups, hown, hgroups, (pure_eq_ok_iff.mp h).symm⟩

/-- The text of a label. -/
def labelText (x y : Number) (text : String) : Markup :=
  .withText "text" [("x", .number x), ("y", .number y)] text

/-- The text of a label as a link to the heading of that name. -/
def labelLink (x y : Number) (text : String) : Markup :=
  .element "a" [("xlink:href", .text ("#" ++ text))] [labelText x y text]

/-- When both coordinates can be computed, a label is a rectangle and a text. -/
theorem labelMarkup_eq_ok {frame : Frame Placement} {x y : Number}
    (hx : Overflow.lift (labelMiddle frame) = .ok x)
    (hy : Overflow.lift ((Number.int frame.place.y).add theme.textBaseline) = .ok y)
    (kind : LabelKind) (text : String) :
    labelMarkup theme frame kind text = .ok [labelRectangle frame kind,
      if isLinked kind then labelLink x y text else labelText x y text] :=
  bind_eq_ok_iff.mpr ⟨x, hx, bind_eq_ok_iff.mpr ⟨y, hy, rfl⟩⟩

/-- What a label box holds is made of two numbers that do not depend on its text. -/
theorem exists_of_labelMarkup {frame : Frame Placement} {kind : LabelKind} {text : String}
    {own : List Markup} (h : labelMarkup theme frame kind text = .ok own) :
    ∃ x y, Overflow.lift (labelMiddle frame) = .ok x ∧
      Overflow.lift ((Number.int frame.place.y).add theme.textBaseline) = .ok y ∧
      own = [labelRectangle frame kind,
        if isLinked kind then labelLink x y text else labelText x y text] := by
  have hsame := h
  rw [labelMarkup, bind_eq_ok_iff] at h
  obtain ⟨x, hx, h⟩ := h
  obtain ⟨y, hy, -⟩ := bind_eq_ok_iff.mp h
  rw [labelMarkup_eq_ok hx hy] at hsame
  exact ⟨x, y, hx, hy, (Except.ok.inj hsame).symm⟩

/-! ### Boxes are regular -/

theorem regular_labelText (x y : Number) (text : String) : (labelText x y text).Regular := by
  refine .of_names ["x", "y"] rfl (by decide) ?_
  split
  · exact fun child hchild => absurd hchild List.not_mem_nil
  · exact List.forall_mem_singleton.mpr (.text text)

theorem regular_labelLink (x y : Number) (text : String) : (labelLink x y text).Regular :=
  .of_names ["xlink:href"] rfl (by decide)
    (List.forall_mem_singleton.mpr (regular_labelText x y text))

theorem regular_labelRectangle (frame : Frame Placement) (kind : LabelKind) :
    (labelRectangle frame kind).Regular := by
  cases kind with
  | terminal => exact .leaf_of_names ["x", "y", "width", "height", "rx", "ry"] rfl (by decide)
  | rule target => exact .leaf_of_names ["x", "y", "width", "height"] rfl (by decide)

/-- What a box draws itself is regular. -/
theorem regular_own {box : Box Placement} {own : List Markup} (h : box.ownMarkup theme = .ok own) :
    ∀ tree ∈ own, tree.Regular := by
  cases box with
  | label frame kind text =>
    obtain ⟨x, y, -, -, rfl⟩ := exists_of_labelMarkup h
    rw [List.forall_mem_cons, List.forall_mem_singleton]
    refine ⟨regular_labelRectangle frame kind, ?_⟩
    split
    · exact regular_labelLink x y text
    · exact regular_labelText x y text
  | _ =>
    obtain rfl := Except.ok.inj h
    simp

end Box

theorem Connector.regular_toMarkup (radius : Int) (connector : Connector) :
    (connector.toMarkup radius).Regular := by
  unfold toMarkup
  split_ifs
  · exact .leaf_of_names ["d"] rfl (by decide)
  · exact .leaf_of_names ["d", "class"] rfl (by decide)

namespace Box

variable {m : Metrics} {theme : Theme}

theorem regular_of_mem_trackMarkup {radius : Int} {frame : Frame Placement} :
    ∀ tree ∈ trackMarkup radius frame, tree.Regular :=
  List.forall_mem_map.mpr fun connector _ => connector.regular_toMarkup radius

/-- The group of a box is a regular tree, by induction over the box. -/
theorem regular_toMarkup {box : Box Placement} {tree : Markup}
    (h : box.toMarkup m theme = .ok tree) : tree.Regular := by
  induction box using Box.induction generalizing tree with
  | step box ih =>
    obtain ⟨own, groups, hown, hgroups, rfl⟩ := exists_of_toMarkup h
    have hcontent : ∀ child ∈ own ++ trackMarkup m.arcRadius box.frame ++ groups,
        child.Regular := by
      rw [List.forall_mem_append, List.forall_mem_append]
      refine ⟨⟨regular_own hown, regular_of_mem_trackMarkup⟩, fun group hgroup => ?_⟩
      obtain ⟨child, hchild, htree⟩ := exists_of_mem_of_mapM_eq_ok hgroups hgroup
      exact ih child hchild htree
    unfold groupAttributes
    cases box.frame.note with
    | none => exact .of_names ["class"] rfl (by decide) hcontent
    | some note => exact .of_names ["data-x", "class"] rfl (by decide) hcontent

end Box

/-! ### Figures are regular -/

namespace Drawing

variable {m : Metrics} {theme : Theme} {d : Drawing}

theorem regular_terminusMarker (x y : Int) : (terminusMarker x y).Regular :=
  .leaf_of_names ["d"] rfl (by decide)

/-- What stands inside a figure: the mark of the start, the end tracks, the root, and the last
mark. -/
theorem exists_of_content {tree : Markup} (h : d.content m theme = .ok tree) :
    ∃ root, d.diagram.root.toMarkup m theme = .ok root ∧
      tree = .element "g"
        (if theme.oddStroke then [("transform", .text "translate(.5 .5)")] else [])
        (terminusMarker d.start.1 d.start.2 :: d.termini.map (·.toMarkup m.arcRadius) ++
          [root, terminusMarker (d.finish.1 - 10) d.finish.2]) := by
  rw [content, bind_eq_ok_iff] at h
  obtain ⟨root, hroot, h⟩ := h
  obtain rfl := pure_eq_ok_iff.mp h
  exact ⟨root, hroot, rfl⟩

/-- What stands inside a figure is a regular tree. -/
theorem regular_content {tree : Markup} (h : d.content m theme = .ok tree) : tree.Regular := by
  obtain ⟨root, hroot, rfl⟩ := exists_of_content h
  have hcontent : ∀ child ∈ terminusMarker d.start.1 d.start.2 ::
      d.termini.map (·.toMarkup m.arcRadius) ++
        [root, terminusMarker (d.finish.1 - 10) d.finish.2], child.Regular := by
    rw [List.forall_mem_append, List.forall_mem_cons, List.forall_mem_map, List.forall_mem_cons,
      List.forall_mem_singleton]
    exact ⟨⟨regular_terminusMarker _ _, fun connector _ => connector.regular_toMarkup _⟩,
      Box.regular_toMarkup hroot, regular_terminusMarker _ _⟩
  split_ifs
  · exact .of_names ["transform"] rfl (by decide) hcontent
  · exact .of_names [] rfl (by decide) hcontent

/-- A figure is its contents in one outermost tag. -/
theorem exists_of_figure {tree : Markup} (h : d.figure m theme = .ok tree) :
    ∃ content, d.content m theme = .ok content ∧
      tree = .element "svg" (d.figureAttributes theme) [content] := by
  rw [figure, bind_eq_ok_iff] at h
  obtain ⟨content, hcontent, h⟩ := h
  obtain rfl := pure_eq_ok_iff.mp h
  exact ⟨content, hcontent, rfl⟩

/-- A figure is a regular tree. -/
theorem regular_figure {tree : Markup} (h : d.figure m theme = .ok tree) : tree.Regular := by
  obtain ⟨content, hcontent, rfl⟩ := exists_of_figure h
  exact .of_names ["class", "width", "height", "viewBox"] rfl (by decide)
    (List.forall_mem_singleton.mpr (regular_content hcontent))

end Drawing

/-! ### Links of figures -/

section

variable {β : Type} {f : String → List (String × String) → Option β} {m : Metrics} {theme : Theme}

/-- What is found at the link of a caption, if it is linked. -/
def findLink (f : String → List (String × String) → Option β) (caption : LabelKind × String) :
    Option β :=
  if Box.isLinked caption.1 then f "a" [("xlink:href", Markup.escapeAttribute ("#" ++ caption.2))]
  else none

/-- Nothing is found at the tags of groups, paths and shapes. -/
def FindsLinks (f : String → List (String × String) → Option β) : Prop :=
  ∀ tag ∈ ["g", "path", "rect", "svg", "text"], ∀ fields, f tag fields = none

/-- There are no links at leaves. -/
theorem FindsLinks.collect_leaf (hf : FindsLinks f) {tag : String}
    {attributes : List (String × AttributeValue)}
    (htag : tag ∈ ["g", "path", "rect", "svg", "text"]) :
    Markup.collect f (Markup.leaf tag attributes).pieces = [] := by
  rw [Markup.leaf, Markup.collect_pieces_element, hf tag htag]
  rfl

theorem FindsLinks.collect_labelText (hf : FindsLinks f) (x y : Number) (text : String) :
    Markup.collect f (Box.labelText x y text).pieces = [] := by
  rw [Box.labelText, Markup.withText, Markup.collect_pieces_element, hf "text" (by decide)]
  split
  · rfl
  · rw [List.flatMap_singleton, Markup.pieces, Markup.collect_chars]
    rfl

/-- In what a box draws itself, a link is found for its caption, if that is linked. -/
theorem FindsLinks.collect_own (hf : FindsLinks f) {box : Box Placement} {own : List Markup}
    (h : box.ownMarkup theme = .ok own) :
    (own.flatMap fun tree => Markup.collect f tree.pieces) =
      (box.caption?.bind (findLink f)).toList := by
  cases box with
  | label frame kind text =>
    obtain ⟨x, y, -, -, rfl⟩ := Box.exists_of_labelMarkup h
    have hrectangle : Markup.collect f (Box.labelRectangle frame kind).pieces = [] :=
      hf.collect_leaf (by decide)
    have htext := hf.collect_labelText x y text
    rw [List.flatMap_cons, List.flatMap_singleton, hrectangle, List.nil_append, Box.caption?,
      Option.bind_some, findLink]
    by_cases hlinked : Box.isLinked kind = true
    · rw [if_pos hlinked, if_pos hlinked, Box.labelLink, Markup.collect_pieces_element,
        List.flatMap_singleton, htext, List.append_nil]
      rfl
    · rw [if_neg hlinked, if_neg hlinked, htext]
      rfl
  | _ =>
    obtain rfl := Except.ok.inj h
    rfl

/-- There are no links at connectors. -/
theorem FindsLinks.collect_tracks (hf : FindsLinks f) (radius : Int)
    (connectors : List Connector) :
    ((connectors.map (·.toMarkup radius)).flatMap fun tree => Markup.collect f tree.pieces) = [] :=
  List.flatMap_eq_nil_iff.mpr (List.forall_mem_map.mpr fun _ _ => hf.collect_leaf (by decide))

/-- In the group of a box, links are found for the captions of the box, in order. -/
theorem FindsLinks.collect_toMarkup (hf : FindsLinks f) {box : Box Placement} {tree : Markup}
    (h : box.toMarkup m theme = .ok tree) :
    Markup.collect f tree.pieces = box.captions.filterMap (findLink f) := by
  induction box using Box.induction generalizing tree with
  | step box ih =>
    obtain ⟨own, groups, hown, hgroups, rfl⟩ := Box.exists_of_toMarkup h
    have hchildren : (groups.flatMap fun group => Markup.collect f group.pieces) =
        box.children.flatMap fun child => child.captions.filterMap (findLink f) := by
      rw [List.flatMap_def, List.flatMap_def,
        map_eq_map_of_mapM_eq_ok hgroups fun child hchild group hgroup => ih child hchild hgroup]
    have hcaption : box.caption?.toList.filterMap (findLink f) =
        (box.caption?.bind (findLink f)).toList := by
      cases box.caption? with
      | none => rfl
      | some caption =>
        rw [Option.toList_some, List.filterMap_cons, Option.bind_some]
        cases findLink f caption <;> rfl
    rw [Markup.collect_pieces_element, hf "g" (by decide), Option.toList_none, List.nil_append,
      List.flatMap_append, List.flatMap_append, hf.collect_own hown, Box.trackMarkup,
      hf.collect_tracks, List.append_nil, hchildren, Box.captions_eq_append, List.filterMap_append,
      List.filterMap_flatMap, hcaption]

/-- In a figure, links are found for the captions of the diagram, in order. -/
theorem FindsLinks.collect_figure (hf : FindsLinks f) {d : Drawing} {tree : Markup}
    (h : d.figure m theme = .ok tree) :
    Markup.collect f tree.pieces = d.diagram.root.captions.filterMap (findLink f) := by
  obtain ⟨content, hcontent, rfl⟩ := Drawing.exists_of_figure h
  obtain ⟨root, hroot, rfl⟩ := Drawing.exists_of_content hcontent
  have hmarker (x y : Int) : Markup.collect f (Drawing.terminusMarker x y).pieces = [] :=
    hf.collect_leaf (by decide)
  rw [Markup.collect_pieces_element, hf "svg" (by decide), List.flatMap_singleton,
    Markup.collect_pieces_element, hf "g" (by decide), List.cons_append, List.flatMap_cons,
    List.flatMap_append, List.flatMap_cons, List.flatMap_singleton, hmarker, hmarker,
    hf.collect_tracks, hf.collect_toMarkup hroot]
  simp

end

end SyntaxDiagram
