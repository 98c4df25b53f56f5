import SyntaxDiagram.Box.Place
import SyntaxDiagram.Proofs.Box.Tree
import Mathlib.Tactic.SplitIfs

/-!
# Moved boxes

A placed tree is moved by moving each of its boxes and every connector (`Box.shift`).  Where a tree
is placed makes no other difference than that (`Box.place_add`): each list of tracks is moved with
the point that it starts from, and so is whatever is placed next to it.
-/

namespace SyntaxDiagram

/-- A connector moved by a distance. Its moves stay as they are. -/
def Connector.shift (dx dy : Int) (connector : Connector) : Connector :=
  { connector with x := connector.x + dx, y := connector.y + dy }

/-- A place moved by a distance, with the connectors there. -/
def Placement.shift (dx dy : Int) (place : Placement) : Placement :=
  ⟨place.x + dx, place.y + dy, place.connectors.map (Connector.shift dx dy)⟩

namespace Box

variable {α : Type}

/-- A placed tree moved by a distance. -/
def shift (dx dy : Int) (box : Box Placement) : Box Placement :=
  box.map (Placement.shift dx dy)

/-! ### Tracks -/

section tracks

variable {m : Metrics} (dx dy : Int)

theorem gapTracks_add (role : Role) (x y span own : Int) :
    gapTracks m role (x + dx) (y + dy) span own =
      (gapTracks m role x y span own).map (Connector.shift dx dy) := by
  unfold gapTracks
  dsimp only
  have hright : x + dx + (m.alignment.gaps span own).1 + own =
      x + (m.alignment.gaps span own).1 + own + dx := by
    omega
  rw [List.map_append, hright]
  congr 1
  · by_cases hleft : (m.alignment.gaps span own).1 = 0
    · rw [if_pos hleft, if_pos hleft, List.map_nil]
    · rw [if_neg hleft, if_neg hleft]
      rfl
  · by_cases hgap : (m.alignment.gaps span own).2 = 0
    · rw [if_pos hgap, if_pos hgap, List.map_nil]
    · rw [if_neg hgap, if_neg hgap]
      rfl

theorem joinTracks_add (role : Role) (x y : Int) (widths : List Int) :
    joinTracks m role (x + dx) (y + dy) widths =
      (joinTracks m role x y widths).map (Connector.shift dx dy) := by
  induction widths generalizing x with
  | nil => rfl
  | cons width rest ih =>
    have hnext : x + dx + m.itemGap + width = x + m.itemGap + width + dx := by omega
    rw [joinTracks, joinTracks, List.map_cons, hnext, ih]
    rfl

theorem lineTracks_add (role : Role) (x y span own : Int) (widths : List Int) :
    lineTracks m role (x + dx) (y + dy) span own widths =
      (lineTracks m role x y span own widths).map (Connector.shift dx dy) := by
  cases widths with
  | nil =>
    by_cases hspan : span = 0
    · rw [lineTracks, lineTracks, if_pos hspan, if_pos hspan, List.map_nil]
    · rw [lineTracks, lineTracks, if_neg hspan, if_neg hspan]
      rfl
  | cons width rest =>
    have hfirst : x + dx + leftGap m span own + width = x + leftGap m span own + width + dx := by
      omega
    rw [lineTracks, lineTracks, List.map_append, gapTracks_add, hfirst, joinTracks_add]

/-- The tracks to and from an item of a branch move with the branch. -/
theorem itemTracks_add (x y inner offset : Int) (role : Role) :
    itemTracks m (x + dx) (y + dy) inner offset role =
      (itemTracks m x y inner offset role).map (Connector.shift dx dy) := by
  unfold itemTracks
  dsimp only
  have hfar : x + dx + 2 * m.arcRadius + inner = x + 2 * m.arcRadius + inner + dx := by omega
  have hline : y + dy + offset = y + offset + dy := by omega
  rw [hfar, hline]
  split_ifs <;> rfl

/-- The tracks of a loop move with the loop. -/
theorem loopTracks_add (x y width offset : Int) :
    loopTracks m (x + dx) (y + dy) width offset =
      (loopTracks m x y width offset).map (Connector.shift dx dy) := by
  unfold loopTracks
  dsimp only
  have hexit : x + dx + width - m.arcRadius = x + width - m.arcRadius + dx := by omega
  rw [hexit]
  rfl

end tracks

/-! ### Boxes -/

section boxes

variable {m : Metrics} {items : List (Box α)}
  (h : ∀ item ∈ items, ∀ x y span dx dy,
    item.place m (x + dx) (y + dy) span = (item.place m x y span).shift dx dy)

include h

/-- A row moves with where it starts, if each of its items does. -/
theorem placeRow_add (x y dx dy : Int) :
    placeRow m (x + dx) (y + dy) items = (placeRow m x y items).map (shift dx dy) := by
  induction items generalizing x with
  | nil => rfl
  | cons item rest ih =>
    rw [List.forall_mem_cons] at h
    have hnext : x + dx + item.width + m.itemGap = x + item.width + m.itemGap + dx := by omega
    rw [placeRow, placeRow, List.map_cons, hnext, h.1, ih h.2]

/-- A stack moves with where it starts, if each of its items does. -/
theorem placeStack_add (x y span dx dy : Int) (offsets : List Int) :
    placeStack m (x + dx) (y + dy) span offsets items =
      (placeStack m x y span offsets items).map (shift dx dy) := by
  induction items generalizing offsets with
  | nil => rfl
  | cons item rest ih =>
    rw [List.forall_mem_cons] at h
    have hline : y + dy + offsets.headD 0 = y + offsets.headD 0 + dy := by omega
    rw [placeStack, placeStack, List.map_cons, hline, h.1, ih h.2]

end boxes

/-- Where a tree is placed makes no difference but that all of it is moved. -/
theorem place_add (m : Metrics) (x y span dx dy : Int) (box : Box α) :
    box.place m (x + dx) (y + dy) span = (box.place m x y span).shift dx dy := by
  induction box using Box.induction generalizing x y span dx dy with
  | step box ih =>
    have hx (left : Int) : x + dx + left = x + left + dx := by omega
    cases box with
    | label frame kind text =>
      simp only [place, gapTracks_add, hx]
      rfl
    | line frame role items =>
      have hitems : ∀ item ∈ items, ∀ x y span dx dy,
          item.place m (x + dx) (y + dy) span = (item.place m x y span).shift dx dy := ih
      simp only [place, shift, map, mapList_eq_map, lineTracks_add, hx, placeRow_add hitems]
      rfl
    | branch frame mainIndex separators offsets items =>
      have hitems : ∀ item ∈ items, ∀ x y span dx dy,
          item.place m (x + dx) (y + dy) span = (item.place m x y span).shift dx dy := ih
      have hinner (x' : Int) : x' + dx + 2 * m.arcRadius = x' + 2 * m.arcRadius + dx := by omega
      simp only [place, shift, map, mapList_eq_map, Frame.moveTo, Placement.shift, gapTracks_add,
        itemTracks_add, hx, hinner, placeStack_add hitems, List.map_append, List.map_flatMap]
      rfl
    | loop frame offset item =>
      have hitem := ih item (List.mem_singleton_self item)
      have hinner (x' : Int) : x' + dx + m.arcRadius = x' + m.arcRadius + dx := by omega
      simp only [place, shift, map, Frame.moveTo, Placement.shift, gapTracks_add, loopTracks_add,
        hx, hinner, hitem, List.map_append]

theorem boxes_shift (dx dy : Int) (box : Box Placement) :
    (box.shift dx dy).boxes = box.boxes.map (shift dx dy) :=
  boxes_map (Placement.shift dx dy) box

/-- The connectors of a tree that is moved are moved ones, in the same order. -/
theorem connectors_shift (dx dy : Int) (box : Box Placement) :
    (box.shift dx dy).connectors = box.connectors.map (Connector.shift dx dy) := by
  have hplace (b : Box Placement) :
      (b.shift dx dy).frame.place.connectors =
        b.frame.place.connectors.map (Connector.shift dx dy) := by
    cases b <;> rfl
  rw [connectors, connectors, boxes_shift, List.flatMap_map, List.map_flatMap]
  exact List.flatMap_congr fun b _ => hplace b

/-- A tree that is placed elsewhere in a span of the same width is the same placed tree moved, and
so is each of its boxes; and its connectors are the same ones moved, in the same order. -/
theorem place_translated (m : Metrics) (x y span dx dy : Int) (box : Box α) :
    box.place m (x + dx) (y + dy) span = (box.place m x y span).shift dx dy ∧
      (box.place m (x + dx) (y + dy) span).boxes =
        (box.place m x y span).boxes.map (shift dx dy) ∧
      (box.place m (x + dx) (y + dy) span).connectors =
        (box.place m x y span).connectors.map (Connector.shift dx dy) := by
  have hplace := place_add m x y span dx dy box
  refine ⟨hplace, ?_, ?_⟩
  · rw [hplace, boxes_shift]
  · rw [hplace, connectors_shift]

end Box

end SyntaxDiagram
