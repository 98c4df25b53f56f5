import SyntaxDiagram.Proofs.Figure.Sizes
import SyntaxDiagram.Proofs.Markup.Parts

/-!
# What a figure shows

The tree of a figure and the drawing are gone through in the same order.  The parts of the group of
a box that are no groups are those of the boxes in it, one by one (`Box.filterMap_parts_toMarkup`),
so the paths are those of the connectors (`Box.paths_toMarkup`) and the shapes those of the label
boxes (`Box.shapes_toMarkup`).  The groups are nested as the boxes are (`Box.groups_toMarkup`).
With the markers at both ends this is all there is in a figure (`Drawing.figure_mirrors`).
-/

namespace SyntaxDiagram

open Markup (Part Nest)

/-! ### Paths and shapes -/

/-- The path data and the class of a path. -/
abbrev Outline := Option AttributeValue × Option AttributeValue

/-- What is seen of a part that is a path. -/
def Markup.Part.outline? (part : Part) : Option Outline :=
  if part.tag = "path" then some (part.attributes.lookup "d", part.attributes.lookup "class")
  else none

/-- A rectangle or a text: the target of the link around it, its place and size, and the text inside
of it. -/
structure Shape where
  tag : String
  link : Option AttributeValue
  x : Option AttributeValue
  y : Option AttributeValue
  width : Option AttributeValue
  height : Option AttributeValue
  content : String

/-- What is seen of a part that is a rectangle or a text. -/
def Markup.Part.shape? (part : Part) : Option Shape :=
  if part.tag = "rect" ∨ part.tag = "text" then
    some
      { tag := part.tag
        link := part.link
        x := part.attributes.lookup "x"
        y := part.attributes.lookup "y"
        width := part.attributes.lookup "width"
        height := part.attributes.lookup "height"
        content := Markup.contentList part.children }
  else none

/-- Nothing is found at the tags of groups, links and whole figures, which hold the others. -/
def SkipsNesting {β : Type} (f : Part → Option β) : Prop :=
  ∀ tag ∈ ["a", "g", "svg"], ∀ link attributes children,
    f ⟨link, tag, attributes, children⟩ = none

/-- Paths are neither groups nor links nor whole figures. -/
theorem skipsNesting_outline? : SkipsNesting Part.outline? := by
  intro tag htag link attributes children
  have hne : tag ≠ "path" := ne_of_mem_of_not_mem htag (by decide)
  rw [Part.outline?, if_neg hne]

/-- Rectangles and texts are neither groups nor links nor whole figures. -/
theorem skipsNesting_shape? : SkipsNesting Part.shape? := by
  intro tag htag link attributes children
  have hrect : tag ≠ "rect" := ne_of_mem_of_not_mem htag (by decide)
  have htext : tag ≠ "text" := ne_of_mem_of_not_mem htag (by decide)
  rw [Part.shape?, if_neg (not_or.mpr ⟨hrect, htext⟩)]

/-- The path of a connector. Its class is its role, unless it is plain track. -/
def Connector.outline (radius : Int) (connector : Connector) : Outline :=
  (some (.text (connector.pathData radius)),
    if connector.role = .line then none else some (.text connector.role.name))

/-- The only path in what is written for a connector is its own. -/
theorem Connector.filterMap_outline?_toMarkup (radius : Int) (connector : Connector) :
    ((connector.toMarkup radius).partsIn none).filterMap Part.outline? =
      [connector.outline radius] := by
  unfold toMarkup outline
  split
  · rfl
  · rfl

/-- Connectors in a row are written as their paths, in order. -/
theorem outlines_tracks (radius : Int) (connectors : List Connector) :
    (connectors.flatMap fun c => ((c.toMarkup radius).partsIn none).filterMap Part.outline?) =
      connectors.map (Connector.outline radius) := by
  rw [List.map_eq_flatMap]
  exact List.flatMap_congr fun c _ => c.filterMap_outline?_toMarkup radius

/-- There is no rectangle and no text among connectors. -/
theorem shapes_tracks (radius : Int) (connectors : List Connector) :
    (connectors.flatMap fun c => ((c.toMarkup radius).partsIn none).filterMap Part.shape?) = [] :=
  List.flatMap_eq_nil_iff.mpr fun _ _ => rfl

namespace Box

variable {m : Metrics} {theme : Theme} {β : Type}

/-- The target of the link around the text of a label: the heading of that name, if the label names
a rule or a terminal. -/
def linkTarget (kind : LabelKind) (text : String) : Option AttributeValue :=
  if kind = .rule (some .rule) ∨ kind = .rule (some .terminal) then some (.text ("#" ++ text))
  else none

/-- The rectangle of a label box. -/
def rectangleShape (frame : Frame Placement) : Shape :=
  { tag := "rect"
    link := none
    x := some (.number (.int frame.place.x))
    y := some (.number (.int (frame.place.y - frame.up)))
    width := some (.number (.int frame.width))
    height := some (.number (.int frame.height))
    content := "" }

/-- The middle of a label box: half of its width from where it is entered, if both can be computed
with. -/
def middle? (frame : Frame Placement) : Option Number := do
  let half ← (Number.halfOfInt frame.width).toOption
  ((Number.int frame.place.x).add (.real half)).toOption

/-- The text of a label box. -/
def textShape (theme : Theme) (frame : Frame Placement) (kind : LabelKind) (text : String) :
    Shape :=
  { tag := "text"
    link := linkTarget kind text
    x := (middle? frame).map .number
    y := ((Number.int frame.place.y).add theme.textBaseline).toOption.map .number
    width := none
    height := none
    content := text }

/-- The rectangle and the text of a label box; other boxes have none. -/
def shapes (theme : Theme) : Box Placement → List Shape
  | .label frame kind text => [rectangleShape frame, textShape theme frame kind text]
  | _ => []

/-- The place of the text of a label box can be computed. -/
def Anchored (theme : Theme) : Box Placement → Prop
  | .label frame _ _ =>
    (∃ x, middle? frame = some x) ∧
      ∃ y, (Number.int frame.place.y).add theme.textBaseline = .ok y
  | _ => True

/-- The class that stands for the kind of a box: labels are told apart by what they show, a literal
or the identifier of a reference. -/
def kindClass : Box Placement → String
  | .label _ .terminal _ => "terminal"
  | .label _ (.rule _) _ => "non-terminal"
  | .line .. => "line"
  | .branch .. => "branch"
  | .loop .. => "loop"

mutual

/-- The tree of boxes, each with the class for its kind. -/
def nest : Box Placement → Nest
  | .label frame kind text => .node (some (.text (kindClass (.label frame kind text)))) []
  | .line _ _ items => .node (some (.text "line")) (nestList items)
  | .branch _ _ _ _ items => .node (some (.text "branch")) (nestList items)
  | .loop _ _ item => .node (some (.text "loop")) [nest item]

/-- The trees of some boxes. -/
def nestList : List (Box Placement) → List Nest
  | [] => []
  | box :: rest => nest box :: nestList rest

end

/-- The tree of a box is the trees of its children under the class for its kind. -/
theorem nest_eq (box : Box Placement) :
    box.nest = .node (some (.text box.kindClass)) (box.children.map nest) := by
  have hlist (items : List (Box Placement)) : nestList items = items.map nest := by
    induction items with
    | nil => rfl
    | cons box rest ih => rw [nestList, ih, List.map_cons]
  cases box with
  | label frame kind text => rfl
  | line frame role items => rw [nest, hlist, children, kindClass]
  | branch frame mainIndex separators offsets items => rw [nest, hlist, children, kindClass]
  | loop frame offset item => rfl

/-- The class that is written on the group of a box is that for its kind. -/
theorem groupClass_eq_kindClass (box : Box Placement) : box.groupClass = box.kindClass := by
  cases box with
  | label frame kind text => cases kind <;> rfl
  | _ => rfl

/-- The middle of a label box is where its text is anchored. -/
theorem middle?_eq_some_iff {frame : Frame Placement} {x : Number} :
    middle? frame = some x ↔ labelMiddle frame = .ok x := by
  unfold middle? labelMiddle
  cases Number.halfOfInt frame.width with
  | error overflow => simp [Except.toOption, bind, Except.bind]
  | ok half =>
    show ((Number.int frame.place.x).add (.real half)).toOption = some x ↔
      (Number.int frame.place.x).add (.real half) = .ok x
    cases (Number.int frame.place.x).add (.real half) with
    | error overflow => simp [Except.toOption]
    | ok sum => simp [Except.toOption]

/-! ### When there is a group -/

/-- A label is linked iff it refers to a rule or to a terminal. -/
theorem isLinked_iff {kind : LabelKind} :
    isLinked kind = true ↔ kind = .rule (some .rule) ∨ kind = .rule (some .terminal) := by
  cases kind with
  | terminal => decide
  | rule target =>
    cases target with
    | none => decide
    | some target => cases target <;> decide

/-- A box can be drawn iff the place of its text can be computed. -/
theorem exists_ownMarkup_iff {box : Box Placement} :
    (∃ own, box.ownMarkup theme = .ok own) ↔ box.Anchored theme := by
  cases box with
  | label frame kind text =>
    constructor
    · rintro ⟨own, hown⟩
      obtain ⟨x, y, hx, hy, -⟩ := exists_of_labelMarkup hown
      exact ⟨⟨x, middle?_eq_some_iff.mpr (mapError_eq_ok_iff.mp hx)⟩, y, mapError_eq_ok_iff.mp hy⟩
    · rintro ⟨⟨x, hx⟩, y, hy⟩
      rw [middle?_eq_some_iff] at hx
      exact ⟨_, labelMarkup_eq_ok (mapError_eq_ok_iff.mpr hx) (mapError_eq_ok_iff.mpr hy) kind text⟩
  | _ => exact ⟨fun _ => trivial, fun _ => ⟨[], rfl⟩⟩

/-- There is a group for a box iff the texts of all label boxes in it have a place. -/
theorem exists_toMarkup_iff {box : Box Placement} :
    (∃ tree, box.toMarkup m theme = .ok tree) ↔ ∀ b ∈ box.boxes, b.Anchored theme := by
  induction box using Box.induction with
  | step box ih =>
    have hgroups : (∃ groups, box.children.mapM (toMarkup m theme) = .ok groups) ↔
        ∀ child ∈ box.children, ∀ b ∈ child.boxes, b.Anchored theme := by
      rw [exists_mapM_eq_ok_iff]
      exact forall₂_congr ih
    rw [boxes_eq_cons, List.forall_mem_cons, List.forall_mem_flatMap, ← hgroups,
      ← exists_ownMarkup_iff]
    constructor
    · rintro ⟨tree, htree⟩
      obtain ⟨own, groups, hown, hgroups, -⟩ := exists_of_toMarkup htree
      exact ⟨⟨own, hown⟩, groups, hgroups⟩
    · rintro ⟨⟨own, hown⟩, groups, hgroups⟩
      rw [toMarkup_eq_bind, hown, hgroups]
      exact ⟨_, rfl⟩

/-! ### Parts of the group of a box -/

section find

variable {f : Part → Option β}

theorem filterMap_labelText (link : Option AttributeValue) (x y : Number) (text : String) :
    ((labelText x y text).partsIn link).filterMap f =
      [⟨link, "text", [("x", .number x), ("y", .number y)],
        if text.isEmpty then [] else [.text text]⟩].filterMap f := by
  unfold labelText Markup.withText
  split
  · rfl
  · rfl

/-- What is found in the text of a label, whether it is a link or not. -/
theorem filterMap_caption (hf : SkipsNesting f) (kind : LabelKind) (x y : Number)
    (text : String) :
    ((caption kind x y text).partsIn none).filterMap f =
      ((labelText x y text).partsIn (linkTarget kind text)).filterMap f := by
  unfold caption linkTarget
  by_cases hlinked : isLinked kind = true
  · rw [if_pos hlinked, if_pos (isLinked_iff.mp hlinked), labelLink, Markup.partsIn, if_pos rfl,
      List.filterMap_cons_none (hf "a" (by decide) ..), Markup.filterMap_partsInList,
      List.flatMap_singleton]
    rfl
  · rw [if_neg hlinked, if_neg fun h => hlinked (isLinked_iff.mpr h)]

/-- The parts of what a box holds itself, apart from other boxes. -/
def ownParts (m : Metrics) (theme : Theme) (box : Box Placement) : List Part :=
  Markup.partsInList none
    ((box.ownMarkup theme).toOption.getD [] ++ trackMarkup m.arcRadius box.frame)

/-- Among a box's own parts are those of what it draws itself, then those of its connectors. -/
theorem filterMap_ownParts {box : Box Placement} {own : List Markup}
    (hown : box.ownMarkup theme = .ok own) :
    (box.ownParts m theme).filterMap f =
      own.flatMap (fun tree => (tree.partsIn none).filterMap f) ++
        box.frame.place.connectors.flatMap fun c =>
          ((c.toMarkup m.arcRadius).partsIn none).filterMap f := by
  rw [ownParts, hown, Markup.filterMap_partsInList, trackMarkup]
  exact List.flatMap_append.trans (congrArg _ (List.flatMap_map ..))

/-- What is found in the group of a box is found in the boxes in it, one by one. -/
theorem filterMap_parts_toMarkup (hf : SkipsNesting f) {box : Box Placement} {tree : Markup}
    (h : box.toMarkup m theme = .ok tree) :
    (tree.partsIn none).filterMap f =
      box.boxes.flatMap fun b => (b.ownParts m theme).filterMap f := by
  induction box using Box.induction generalizing tree with
  | step box ih =>
    obtain ⟨own, groups, hown, hgroups, rfl⟩ := exists_of_toMarkup h
    have hchildren : (groups.flatMap fun group => (group.partsIn none).filterMap f) =
        box.children.flatMap fun child => child.boxes.flatMap fun b =>
          (b.ownParts m theme).filterMap f := by
      rw [List.flatMap_def, List.flatMap_def,
        map_eq_map_of_mapM_eq_ok hgroups fun child hchild group hgroup => ih child hchild hgroup]
    rw [Markup.filterMap_partsIn_element (by decide) (hf "g" (by decide) ..), List.flatMap_append,
      hchildren, boxes_eq_cons, List.flatMap_cons, List.flatMap_assoc, ownParts, hown,
      Markup.filterMap_partsInList]
    rfl

end find

/-- The paths in the group of a box are those of the connectors in it. -/
theorem paths_toMarkup {box : Box Placement} {tree : Markup}
    (h : box.toMarkup m theme = .ok tree) :
    (tree.partsIn none).filterMap Part.outline? =
      box.connectors.map (Connector.outline m.arcRadius) := by
  rw [filterMap_parts_toMarkup skipsNesting_outline? h, connectors, List.map_flatMap]
  refine List.flatMap_congr fun b hb => ?_
  obtain ⟨own, hown⟩ := exists_ownMarkup_iff.mpr (exists_toMarkup_iff.mp ⟨tree, h⟩ b hb)
  have hempty : own.flatMap (fun tree => (tree.partsIn none).filterMap Part.outline?) = [] := by
    cases b with
    | label frame kind text =>
      obtain ⟨x, y, -, -, rfl⟩ := exists_of_labelMarkup hown
      rw [List.flatMap_cons, List.flatMap_singleton, ← caption,
        filterMap_caption skipsNesting_outline?, filterMap_labelText]
      rfl
    | _ =>
      obtain rfl := Except.ok.inj hown
      rfl
  rw [filterMap_ownParts hown, hempty, List.nil_append, outlines_tracks]

/-- The rectangle of a label is seen as one. -/
theorem shapes_labelRectangle (frame : Frame Placement) (kind : LabelKind) :
    ((labelRectangle frame kind).partsIn none).filterMap Part.shape? = [rectangleShape frame] := by
  cases kind with
  | terminal => rfl
  | rule target => rfl

/-- The text of a label is seen as one, inside a link if the label is linked. -/
theorem shapes_caption {frame : Frame Placement} {x y : Number} (hx : labelMiddle frame = .ok x)
    (hy : (Number.int frame.place.y).add theme.textBaseline = .ok y) (kind : LabelKind)
    (text : String) :
    ((caption kind x y text).partsIn none).filterMap Part.shape? =
      [textShape theme frame kind text] := by
  have hcontent := Markup.contentList_withText text
  rw [filterMap_caption skipsNesting_shape?, filterMap_labelText, textShape,
    middle?_eq_some_iff.mpr hx, hy]
  generalize (if text.isEmpty then [] else [Markup.text text]) = children at hcontent ⊢
  subst hcontent
  rfl

/-- The rectangles and the texts in the group of a box are those of the label boxes in it. -/
theorem shapes_toMarkup {box : Box Placement} {tree : Markup}
    (h : box.toMarkup m theme = .ok tree) :
    (tree.partsIn none).filterMap Part.shape? = box.boxes.flatMap (shapes theme) := by
  rw [filterMap_parts_toMarkup skipsNesting_shape? h]
  refine List.flatMap_congr fun b hb => ?_
  obtain ⟨own, hown⟩ := exists_ownMarkup_iff.mpr (exists_toMarkup_iff.mp ⟨tree, h⟩ b hb)
  rw [filterMap_ownParts hown, shapes_tracks, List.append_nil]
  cases b with
  | label frame kind text =>
    obtain ⟨x, y, hx, hy, rfl⟩ := exists_of_labelMarkup hown
    rw [List.flatMap_cons, List.flatMap_singleton, ← caption, shapes_labelRectangle,
      shapes_caption (mapError_eq_ok_iff.mp hx) (mapError_eq_ok_iff.mp hy)]
    rfl
  | _ =>
    obtain rfl := Except.ok.inj hown
    rfl

/-! ### Groups in the group of a box -/

/-- There are no groups in what a box holds itself. -/
theorem groups_own {box : Box Placement} {own : List Markup}
    (h : box.ownMarkup theme = .ok own) : own.flatMap Markup.groups = [] := by
  cases box with
  | label frame kind text =>
    obtain ⟨x, y, -, -, rfl⟩ := exists_of_labelMarkup h
    have htext : (labelText x y text).groups = [] := by
      unfold labelText Markup.withText
      split
      · rfl
      · rfl
    rw [List.flatMap_cons, List.flatMap_singleton]
    split
    · rw [labelLink, Markup.groups_of_ne (by decide), List.flatMap_singleton, htext]
      rfl
    · rw [htext]
      rfl
  | _ =>
    obtain rfl := Except.ok.inj h
    rfl

theorem groups_tracks (radius : Int) (connectors : List Connector) :
    (connectors.map (·.toMarkup radius)).flatMap Markup.groups = [] := by
  rw [List.flatMap_map]
  exact List.flatMap_eq_nil_iff.mpr fun c _ => rfl

/-- The class on the group of a box is that for its kind. -/
theorem lookup_class_groupAttributes (box : Box Placement) :
    box.groupAttributes.lookup "class" = some (.text box.kindClass) := by
  unfold groupAttributes
  rw [groupClass_eq_kindClass]
  cases box.frame.note with
  | none => rfl
  | some note => rfl

/-- The groups in the group of a box are nested as the boxes are. -/
theorem groups_toMarkup {box : Box Placement} {tree : Markup}
    (h : box.toMarkup m theme = .ok tree) : tree.groups = [box.nest] := by
  induction box using Box.induction generalizing tree with
  | step box ih =>
    obtain ⟨own, groups, hown, hgroups, rfl⟩ := exists_of_toMarkup h
    have hchildren : groups.flatMap Markup.groups = box.children.map nest := by
      rw [List.flatMap_def,
        map_eq_map_of_mapM_eq_ok hgroups fun child hchild group hgroup => ih child hchild hgroup,
        ← List.flatMap_def, List.map_eq_flatMap]
    rw [Markup.groups_group, List.flatMap_append, List.flatMap_append, groups_own hown, trackMarkup,
      groups_tracks, hchildren, lookup_class_groupAttributes, nest_eq]
    rfl

end Box

/-! ### Figures -/

namespace Drawing

variable {m : Metrics} {theme : Theme} {d : Drawing} {tree : Markup}

/-- There is a figure iff the texts of all label boxes have a place. -/
theorem exists_figure_iff :
    (∃ tree, d.figure m theme = .ok tree) ↔ ∀ box ∈ d.boxes, box.Anchored theme := by
  rw [boxes, ← Box.exists_toMarkup_iff (m := m)]
  constructor
  · rintro ⟨tree, htree⟩
    obtain ⟨content, hcontent, -⟩ := exists_of_figure htree
    obtain ⟨root, hroot, -⟩ := exists_of_content hcontent
    exact ⟨root, hroot⟩
  · rintro ⟨root, hroot⟩
    rw [figure, content, hroot]
    exact ⟨_, rfl⟩

/-- What is found in a figure is found in the marker at its start, the connectors at its ends, the
group of the root and the marker at its end. -/
theorem filterMap_parts_figure {β : Type} {f : Part → Option β} (hf : SkipsNesting f)
    (h : d.figure m theme = .ok tree) :
    ∃ root, d.diagram.root.toMarkup m theme = .ok root ∧
      tree.parts.filterMap f =
        ((terminusMarker d.start.1 d.start.2).partsIn none).filterMap f ++
          ((d.termini.flatMap fun c => ((c.toMarkup m.arcRadius).partsIn none).filterMap f) ++
            ((root.partsIn none).filterMap f ++
              ((terminusMarker (d.finish.1 - 10) d.finish.2).partsIn none).filterMap f)) := by
  obtain ⟨content, hcontent, rfl⟩ := exists_of_figure h
  obtain ⟨root, hroot, rfl⟩ := exists_of_content hcontent
  refine ⟨root, hroot, ?_⟩
  rw [Markup.parts, Markup.filterMap_partsIn_element (by decide) (hf "svg" (by decide) ..),
    List.flatMap_singleton, Markup.filterMap_partsIn_element (by decide) (hf "g" (by decide) ..),
    List.flatMap_append, List.flatMap_cons, List.flatMap_map, List.flatMap_cons,
    List.flatMap_singleton, List.append_assoc]

/-- The paths of a figure are the two marks at the ends and, between them, all connectors in
order. -/
theorem paths_figure (h : d.figure m theme = .ok tree) :
    tree.parts.filterMap Part.outline? =
      (some (.text (terminusPath d.start.1 d.start.2)), none) ::
        d.connectors.map (Connector.outline m.arcRadius) ++
        [(some (.text (terminusPath (d.finish.1 - 10) d.finish.2)), none)] := by
  have hmarker (x y : Int) : ((terminusMarker x y).partsIn none).filterMap Part.outline? =
      [(some (.text (terminusPath x y)), none)] := rfl
  obtain ⟨root, hroot, hparts⟩ := filterMap_parts_figure skipsNesting_outline? h
  rw [hparts, hmarker, hmarker, outlines_tracks, Box.paths_toMarkup hroot, connectors,
    List.map_append, List.cons_append, List.nil_append, List.cons_append, List.append_assoc]

/-- The rectangles and texts of a figure are those of its label boxes, in order. -/
theorem shapes_figure (h : d.figure m theme = .ok tree) :
    tree.parts.filterMap Part.shape? = d.boxes.flatMap (Box.shapes theme) := by
  obtain ⟨root, hroot, hparts⟩ := filterMap_parts_figure skipsNesting_shape? h
  rw [hparts, shapes_tracks, Box.shapes_toMarkup hroot]
  exact List.append_nil _

/-- The groups of a figure are nested as the boxes of the diagram, inside one without a class. -/
theorem groups_figure (h : d.figure m theme = .ok tree) :
    tree.groups = [.node none [d.diagram.root.nest]] := by
  obtain ⟨content, hcontent, rfl⟩ := exists_of_figure h
  obtain ⟨root, hroot, rfl⟩ := exists_of_content hcontent
  have hmarker (x y : Int) : (terminusMarker x y).groups = [] := rfl
  rw [Markup.groups_of_ne (by decide), List.flatMap_singleton, Markup.groups_group,
    List.flatMap_append, List.flatMap_cons, Box.groups_tracks, List.flatMap_cons,
    List.flatMap_singleton, hmarker, hmarker, Box.groups_toMarkup hroot]
  split
  · rfl
  · rfl

/-- A figure shows what the drawing holds, in the same order, and there is one iff the texts of all
label boxes have a place.  Its paths are the marker at the start, those of the connectors, with
their path data and their roles, and the marker at the end.  Its rectangles and texts are those of
the label boxes, one of each for a box.  Its groups are nested in the outermost one as the boxes
are. -/
theorem figure_mirrors (m : Metrics) (theme : Theme) (d : Drawing) :
    ((∃ tree, d.figure m theme = .ok tree) ↔ ∀ box ∈ d.boxes, box.Anchored theme) ∧
      ∀ tree, d.figure m theme = .ok tree →
        tree.parts.filterMap Part.outline? =
          (some (.text (terminusPath d.start.1 d.start.2)), none) ::
            d.connectors.map (Connector.outline m.arcRadius) ++
            [(some (.text (terminusPath (d.finish.1 - 10) d.finish.2)), none)] ∧
        tree.parts.filterMap Part.shape? = d.boxes.flatMap (Box.shapes theme) ∧
        tree.groups = [.node none [d.diagram.root.nest]] :=
  ⟨exists_figure_iff, fun _ h => ⟨paths_figure h, shapes_figure h, groups_figure h⟩⟩

/-- A rule with one box of each kind: a literal and a repeated reference to a rule in a row, and
below them a reference to something imported. -/
def everyKind : Entry :=
  ⟨.rule, "list", "", [[.literal "(", .quantified (.reference "item" (some .rule)) .plus],
    [.reference "x" (some .external)]]⟩

/-- The paths of its figure. -/
def everyKindPaths : List Outline :=
  [(some (.text "M 20 21 v 20 m 10 -20 v 20"), none),
    (some (.text "M20 31h20h.5"), none), (some (.text "M178 31h20h.5"), none),
    (some (.text "M40 31h20h.5"), none), (some (.text "M158 31h20h.5"), none),
    (some (.text "M40 31a10 10 0 0 1 10 10v19a10 10 0 0 0 10 10"), some (.text "branch")),
    (some (.text "M158 70a10 10 0 0 0 10 -10v-19a10 10 0 0 1 10 -10"), some (.text "branch")),
    (some (.text "M89 31h20h.5"), none),
    (some (.text "M109 31h10h.5"), none), (some (.text "M148 31h10h.5"), none),
    (some (.text ("M148 31a10 10 0 0 1 10 10v0a10 10 0 0 1 -10 10h-29" ++
      "a10 10 0 0 1 -10 -10v0a10 10 0 0 1 10 -10")), some (.text "loop")),
    (some (.text "M60 70h34h.5"), none), (some (.text "M123 70h35h.5"), none),
    (some (.text "M 188 21 v 20 m 10 -20 v 20"), none)]

/-- The rectangles and the texts of its figure, each with its tag, the link around it, its
coordinates and its width as they are written, and its text. -/
def everyKindShapes : List
    (String × Option AttributeValue × Option String × Option String × Option String × String) :=
  [("rect", none, some "60", some "20", some "29", ""),
    ("text", none, some "74.5", some "35", none, "("),
    ("rect", none, some "119", some "20", some "29", ""),
    ("text", some (.text "#item"), some "133.5", some "35", none, "item"),
    ("rect", none, some "94", some "59", some "29", ""),
    ("text", none, some "108.5", some "74", none, "x")]

/-- The groups of its figure inside of the outermost one. -/
def everyKindNest : Nest :=
  .node (some (.text "branch"))
    [.node (some (.text "line"))
        [.node (some (.text "terminal")) [],
          .node (some (.text "loop")) [.node (some (.text "non-terminal")) []]],
      .node (some (.text "line")) [.node (some (.text "non-terminal")) []]]

/-- In its figure, the paths are those of the connectors between two markers, the reference to a
rule is a link and the other one is not, and each group has the class for the kind of its box. -/
theorem figure_mirrors_links : ∃ d tree,
    everyKind.layout .standard (.const (some (.int 9))) = .ok d ∧
      d.figure .standard .standard = .ok tree ∧
      tree.parts.filterMap Part.outline? = everyKindPaths ∧
      (tree.parts.filterMap Part.shape?).map (fun shape => (shape.tag, shape.link,
          shape.x.map (·.shown), shape.y.map (·.shown), shape.width.map (·.shown),
          shape.content)) = everyKindShapes ∧
      tree.groups = [.node none [everyKindNest]] := by
  obtain ⟨d, hlayout, hpaths, hshapes, hnest, tree, text, hfigure, -⟩ : ∃ d,
      everyKind.layout .standard (.const (some (.int 9))) = .ok d ∧
        (some (.text (terminusPath d.start.1 d.start.2)), none) ::
            d.connectors.map (Connector.outline Metrics.standard.arcRadius) ++
            [(some (.text (terminusPath (d.finish.1 - 10) d.finish.2)), none)] =
          everyKindPaths ∧
        (d.boxes.flatMap (Box.shapes .standard)).map (fun shape => (shape.tag, shape.link,
            shape.x.map (·.shown), shape.y.map (·.shown), shape.width.map (·.shown),
            shape.content)) = everyKindShapes ∧
        d.diagram.root.nest = everyKindNest ∧
        ∃ tree text, d.figure .standard .standard = .ok tree ∧ tree.write = .ok text :=
    ⟨_, rfl, by decide +kernel, by decide +kernel, rfl, exists_of_isSome_bind (by decide +kernel)⟩
  obtain ⟨houtlines, hall, hgroups⟩ := (figure_mirrors .standard .standard d).2 tree hfigure
  refine ⟨d, tree, hlayout, hfigure, houtlines.trans hpaths, ?_, ?_⟩
  · rw [hall]
    exact hshapes
  · rw [hgroups, hnest]

end Drawing

end SyntaxDiagram
