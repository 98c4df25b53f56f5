import SyntaxDiagram.Box.Basic
import Mathlib.Data.List.Basic

/-!
# Boxes as trees

Induction on a box from its children (`Box.induction`), and the boxes of a tree in terms of those of
its children (`Box.boxes_eq_cons`).  Changing every frame and every kind of label of a tree keeps
its shape (`Box.boxes_mapParts`); changing every place is a case of it (`Box.map_eq_mapParts`).
-/

namespace SyntaxDiagram.Box

variable {α β : Type}

@[elab_as_elim]
theorem induction {P : Box α → Prop} (step : ∀ box, (∀ child ∈ box.children, P child) → P box)
    (box : Box α) : P box :=
  @Box.rec α P (fun items => ∀ item ∈ items, P item)
    (fun _ _ _ => step _ fun _ h => absurd h List.not_mem_nil)
    (fun _ _ _ ih => step _ ih)
    (fun _ _ _ _ _ ih => step _ ih)
    (fun _ _ _ ih => step _ fun _ h => List.mem_singleton.mp h ▸ ih)
    (fun _ h => absurd h List.not_mem_nil)
    (fun _ _ hitem hitems _ h =>
      (List.mem_cons.mp h).elim (fun h => h ▸ hitem) fun h => hitems _ h)
    box

/-- The boxes of a tree are its root, then those of each child in order. -/
theorem boxes_eq_cons (box : Box α) : box.boxes = box :: box.children.flatMap boxes := by
  cases box <;> simp [boxes, children, boxesList_eq_flatMap]

/-! ### Changed frames and labels -/

mutual

/-- The tree with every frame changed, and the kind of every label. -/
def mapParts (f : Frame α → Frame β) (g : LabelKind → String → LabelKind) : Box α → Box β
  | .label frame kind text => .label (f frame) (g kind text) text
  | .line frame role items => .line (f frame) role (mapPartsList f g items)
  | .branch frame mainIndex separators offsets items =>
    .branch (f frame) mainIndex separators offsets (mapPartsList f g items)
  | .loop frame offset item => .loop (f frame) offset (mapParts f g item)

/-- The trees with every frame changed, and the kind of every label. -/
def mapPartsList (f : Frame α → Frame β) (g : LabelKind → String → LabelKind) :
    List (Box α) → List (Box β)
  | [] => []
  | box :: rest => mapParts f g box :: mapPartsList f g rest

end

section mapParts

variable (f : Frame α → Frame β) (g : LabelKind → String → LabelKind)

/-- Mapping the parts of a list of boxes is mapping those of each. -/
theorem mapPartsList_eq_map (items : List (Box α)) :
    mapPartsList f g items = items.map (mapParts f g) := by
  induction items with
  | nil => rfl
  | cons box rest ih => rw [mapPartsList, ih, List.map_cons]

theorem frame_mapParts (box : Box α) : (box.mapParts f g).frame = f box.frame := by
  cases box <;> rfl

/-- Mapping the parts of a tree keeps its shape. -/
theorem children_mapParts (box : Box α) :
    (box.mapParts f g).children = box.children.map (mapParts f g) := by
  cases box <;> simp only [mapParts, children, mapPartsList_eq_map, List.map_nil, List.map_cons]

/-- The boxes of a mapped tree are the mapped boxes, in the same order. -/
theorem boxes_mapParts (box : Box α) :
    (box.mapParts f g).boxes = box.boxes.map (mapParts f g) := by
  induction box using Box.induction with
  | step box ih =>
    have hchildren : (box.children.map (mapParts f g)).flatMap boxes =
        box.children.flatMap fun child => child.boxes.map (mapParts f g) := by
      rw [List.flatMap_map]
      exact List.flatMap_congr ih
    rw [boxes_eq_cons, boxes_eq_cons, children_mapParts, hchildren, List.map_cons,
      List.map_flatMap]

end mapParts

/-- Changing every place changes every frame and no label. -/
theorem map_eq_mapParts (f : α → β) (box : Box α) :
    box.map f = box.mapParts (fun frame => frame.moveTo (f frame.place)) fun kind _ => kind := by
  induction box using Box.induction with
  | step box ih =>
    cases box with
    | label frame kind text => rfl
    | line frame role items =>
      rw [map, mapParts, mapList_eq_map, mapPartsList_eq_map]
      exact congrArg (Box.line _ role) (List.map_congr_left ih)
    | branch frame mainIndex separators offsets items =>
      rw [map, mapParts, mapList_eq_map, mapPartsList_eq_map]
      exact congrArg (Box.branch _ mainIndex separators offsets) (List.map_congr_left ih)
    | loop frame offset item =>
      rw [map, mapParts, ih item (List.mem_singleton_self item)]

theorem children_map (f : α → β) (box : Box α) :
    (box.map f).children = box.children.map (map f) := by
  cases box <;> simp only [map, children, mapList_eq_map, List.map_nil, List.map_cons]

/-- The boxes of a tree with mapped values are the boxes with mapped values, in the same order. -/
theorem boxes_map (f : α → β) (box : Box α) : (box.map f).boxes = box.boxes.map (map f) := by
  have hmap : map f = mapParts (fun frame => frame.moveTo (f frame.place)) fun kind _ => kind :=
    funext (map_eq_mapParts f)
  rw [hmap, boxes_mapParts]

end SyntaxDiagram.Box
