import SyntaxDiagram.Proofs.Box.Congruence
import SyntaxDiagram.Proofs.Box.Heights
import SyntaxDiagram.Proofs.Box.Tree

/-!
# Elevations

The upright of a tree is all of it but its widths (`Box.upright`), and its elevation in a drawing is
the upright with the height at which each box is (`Box.elevation`).  The elevation of a placed tree
depends on nothing but the upright and the height at which it is placed (`Box.elevation_place_eq`),
and the builders make boxes of the same upright from items of the same uprights
(`Box.congruence_upright`), however wide the labels are.
-/

namespace SyntaxDiagram

/-- A frame without its width, at a given place. -/
def Frame.upright {α β : Type} (place : β) (frame : Frame α) : Frame β :=
  ⟨0, frame.up, frame.down, none, place⟩

namespace Box

variable {α : Type} {m m' : Metrics}

/-- A tree with its widths left out, and where its boxes are. -/
def upright (box : Box α) : Box Unit :=
  box.mapParts (Frame.upright ()) fun kind _ => kind

/-- A placed tree with its widths left out, and of where its boxes are all but the height. -/
def elevation (box : Box Placement) : Box Int :=
  box.mapParts (fun frame => Frame.upright frame.place.y frame) fun kind _ => kind

/-! ### Placing -/

section items

variable {items : List (Box α)}
  (h : ∀ item ∈ items, ∀ x x' y span span', (item.place m x y span).elevation =
    (item.upright.place m' x' y span').elevation)

include h

/-- The items of a row are placed at heights that depend on their uprights alone. -/
theorem map_elevation_placeRow (x x' y : Int) :
    (placeRow m x y items).map elevation =
      (placeRow m' x' y (items.map upright)).map elevation := by
  induction items generalizing x x' with
  | nil => rfl
  | cons item rest ih =>
    rw [List.forall_mem_cons] at h
    rw [List.map_cons, placeRow, placeRow, List.map_cons, List.map_cons, h.1 x x' y,
      ih h.2 _ (x' + item.upright.width + m'.itemGap)]

/-- The items of a stack are placed at heights that depend on their uprights alone. -/
theorem map_elevation_placeStack (x x' y span span' : Int) (offsets : List Int) :
    (placeStack m x y span offsets items).map elevation =
      (placeStack m' x' y span' offsets (items.map upright)).map elevation := by
  induction items generalizing offsets with
  | nil => rfl
  | cons item rest ih =>
    rw [List.forall_mem_cons] at h
    rw [List.map_cons, placeStack, placeStack, List.map_cons, List.map_cons, h.1 x x' _ span span',
      ih h.2]

end items

/-- At which heights the boxes of a tree are placed depends on its upright alone, and on the height
at which the tree is placed. -/
theorem elevation_place (x x' y span span' : Int) (box : Box α) :
    (box.place m x y span).elevation = (box.upright.place m' x' y span').elevation := by
  induction box using Box.induction generalizing x x' y span span' with
  | step box ih =>
    cases box with
    | label frame kind text => rfl
    | line frame role items =>
      have hitems : ∀ item ∈ items, ∀ x x' y span span', (item.place m x y span).elevation =
        (item.upright.place m' x' y span').elevation := ih
      rw [upright, mapParts, place, place, elevation, elevation, mapParts, mapParts,
        mapPartsList_eq_map, mapPartsList_eq_map, mapPartsList_eq_map]
      exact congrArg (Box.line _ role) (map_elevation_placeRow hitems ..)
    | branch frame mainIndex separators offsets items =>
      have hitems : ∀ item ∈ items, ∀ x x' y span span', (item.place m x y span).elevation =
        (item.upright.place m' x' y span').elevation := ih
      rw [upright, mapParts, place, place, elevation, elevation, mapParts, mapParts,
        mapPartsList_eq_map, mapPartsList_eq_map, mapPartsList_eq_map]
      exact congrArg (Box.branch _ mainIndex separators offsets)
        (map_elevation_placeStack hitems ..)
    | loop frame offset item =>
      rw [upright, mapParts, place, place, elevation, elevation, mapParts, mapParts]
      exact congrArg (Box.loop _ offset) (ih item (List.mem_singleton_self item) ..)

/-- Trees of the same upright are at the same heights when they are placed at the same height. -/
theorem elevation_place_eq {box box' : Box α} (h : box.upright = box'.upright)
    (x x' y span span' : Int) :
    (box.place m x y span).elevation = (box'.place m' x' y span').elevation :=
  calc (box.place m x y span).elevation
      = (box.upright.place m 0 y 0).elevation := elevation_place ..
    _ = (box'.upright.place m 0 y 0).elevation := by rw [h]
    _ = (box'.place m' x' y span').elevation := (elevation_place ..).symm

/-! ### Builders -/

/-- The uprights of two boxes of the same upright reach as far up and down. -/
theorem sameHeights_of_upright_eq {box box' : Box α} (h : box.upright = box'.upright) :
    SameHeights box box' := by
  have hup (b : Box α) : b.upright.up = b.up := by
    rw [up, upright, frame_mapParts]
    rfl
  have hdown (b : Box α) : b.upright.down = b.down := by
    rw [down, upright, frame_mapParts]
    rfl
  constructor
  · rw [← hup, h, hup]
  · rw [← hdown, h, hdown]

theorem forall₂_sameHeights {items items' : List (Box α)}
    (h : List.Forall₂ (fun box box' => box.upright = box'.upright) items items') :
    List.Forall₂ SameHeights items items' :=
  h.imp fun {_ _} => sameHeights_of_upright_eq

theorem upright_ofItems [Inhabited α] (role : Role) (items : List (Box α)) :
    (ofItems m role items).upright =
      .line (Frame.upright () (ofItems m role items).frame) role (items.map upright) := by
  cases items with
  | nil => rfl
  | cons first rest =>
    rw [upright, ofItems, mapParts, mapPartsList_eq_map]
    rfl

theorem upright_stacked [Inhabited α] (above : List (Box α)) (main : Box α)
    (below : List (Box α)) :
    (stacked m above main below).upright =
      .branch (Frame.upright () (stacked m above main below).frame) above.length
        (stacked m above main below).separators (stacked m above main below).offsets
        ((above ++ main :: below).map upright) := by
  rw [upright, stacked, mapParts, mapPartsList_eq_map]
  rfl

/-- The frames of boxes of the same heights are the same without their widths. -/
theorem upright_frame_eq {box box' : Box α} (h : SameHeights box box') :
    Frame.upright () box.frame = Frame.upright () box'.frame := by
  have hup : box.frame.up = box'.frame.up := h.up_eq
  have hdown : box.frame.down = box'.frame.down := h.down_eq
  rw [Frame.upright, Frame.upright, hup, hdown]

/-- Having the same upright is a congruence, and asks nothing of labels. -/
theorem congruence_upright (m : Metrics) :
    Congruence m (fun _ _ => True) fun box box' => box.upright = box'.upright where
  label kind text width width' _ := rfl
  line role items items' h := by
    have hheights := SameHeights.ofItems (m := m) (forall₂_sameHeights h) role
    rw [upright_ofItems, upright_ofItems, upright_frame_eq hheights,
      map_eq_map_of_forall₂ h fun _ _ h => h]
  stacked above above' main main' below below' habove hmain hbelow := by
    have habove' := forall₂_sameHeights habove
    have hmain' := sameHeights_of_upright_eq hmain
    have hbelow' := forall₂_sameHeights hbelow
    have hheights := SameHeights.stacked (m := m) habove' hmain' hbelow'
    rw [upright_stacked, upright_stacked, upright_frame_eq hheights,
      SameHeights.separators_eq habove' hmain' hbelow',
      SameHeights.offsets_eq habove' hmain' hbelow', habove.length_eq,
      map_eq_map_of_forall₂ (List.rel_append habove (.cons hmain hbelow)) fun _ _ h => h]
  repeated item item' h := by
    have hheights := SameHeights.repeated (m := m) (sameHeights_of_upright_eq h)
    have hoffset : max (2 * m.arcRadius) (item.down + m.separation) =
        max (2 * m.arcRadius) (item'.down + m.separation) := hheights.down_eq
    have hframe := upright_frame_eq hheights
    show Box.loop (Frame.upright () (Box.repeated m item).frame)
      (max (2 * m.arcRadius) (item.down + m.separation)) item.upright =
        Box.loop (Frame.upright () (Box.repeated m item').frame)
          (max (2 * m.arcRadius) (item'.down + m.separation)) item'.upright
    rw [hframe, hoffset, h]

end Box

end SyntaxDiagram
