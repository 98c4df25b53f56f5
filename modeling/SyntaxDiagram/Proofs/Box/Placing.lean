import SyntaxDiagram.Box.Place
import SyntaxDiagram.Proofs.Box.Tree
import Mathlib.Data.List.Forall2

/-!
# Trees before and after placing

Each child of a placed box is a child of the box that was placed somewhere
(`Box.forall₂_children_place`).  So what does not depend on the place of a box is the same for the
boxes of a tree before and after (`Box.map_boxes_place`), and a change that is made to every item of
a row or of a stack can be made before or after placing (`Box.placeRow_map`, `Box.placeStack_map`).
-/

namespace SyntaxDiagram.Box

variable {α β γ : Type} {m : Metrics}

/-- A placed box is a given box at some point and in some span. -/
def Placed (m : Metrics) (box : Box α) (placed : Box Placement) : Prop :=
  ∃ x y span, placed = box.place m x y span

/-! ### Children -/

/-- The boxes of a row are its items, each placed somewhere. -/
theorem forall₂_placeRow (x y : Int) (items : List (Box α)) :
    List.Forall₂ (Placed m) items (placeRow m x y items) := by
  induction items generalizing x with
  | nil => exact .nil
  | cons item rest ih => exact .cons ⟨_, _, _, rfl⟩ (ih _)

/-- The boxes of a stack are its items, each placed somewhere. -/
theorem forall₂_placeStack (x y span : Int) (offsets : List Int) (items : List (Box α)) :
    List.Forall₂ (Placed m) items (placeStack m x y span offsets items) := by
  induction items generalizing offsets with
  | nil => exact .nil
  | cons item rest ih => exact .cons ⟨_, _, _, rfl⟩ (ih _)

/-- The children of a placed box are its children, each placed somewhere. -/
theorem forall₂_children_place (x y span : Int) (box : Box α) :
    List.Forall₂ (Placed m) box.children (box.place m x y span).children := by
  cases box with
  | label frame kind text => exact .nil
  | line frame role items => exact forall₂_placeRow ..
  | branch frame mainIndex separators offsets items => exact forall₂_placeStack ..
  | loop frame offset item => exact .cons ⟨_, _, _, rfl⟩ .nil

theorem exists_of_mem_placed {items : List (Box α)} {placed : List (Box Placement)}
    (h : List.Forall₂ (Placed m) items placed) {box : Box Placement} (hbox : box ∈ placed) :
    ∃ item ∈ items, ∃ x y span, box = item.place m x y span := by
  induction h with
  | nil => exact absurd hbox List.not_mem_nil
  | @cons item first rest rest' hfirst _ ih =>
    rcases List.mem_cons.mp hbox with rfl | hbox
    · exact ⟨item, List.mem_cons_self .., hfirst⟩
    · obtain ⟨other, hother, hplaced⟩ := ih hbox
      exact ⟨other, List.mem_cons_of_mem _ hother, hplaced⟩

/-- What each item has wherever it is placed, the placed items have. -/
theorem map_placed {items : List (Box α)} {placed : List (Box Placement)} {f : Box Placement → γ}
    {g : Box α → γ} (hplaced : List.Forall₂ (Placed m) items placed)
    (h : ∀ item ∈ items, ∀ x y span, f (item.place m x y span) = g item) :
    placed.map f = items.map g := by
  induction hplaced with
  | nil => rfl
  | @cons item first rest rest' hfirst _ ih =>
    rw [List.forall_mem_cons] at h
    obtain ⟨x, y, span, rfl⟩ := hfirst
    rw [List.map_cons, List.map_cons, h.1, ih h.2]

/-! ### Boxes of a tree -/

/-- What does not depend on the place of a box is the same for all boxes of a tree before and after
placing. -/
theorem map_boxes_place {f : Box Placement → γ} {g : Box α → γ}
    (h : ∀ box x y span, f (box.place m x y span) = g box) (x y span : Int) (box : Box α) :
    (box.place m x y span).boxes.map f = box.boxes.map g := by
  induction box using Box.induction generalizing x y span with
  | step box ih =>
    have hchildren : (box.place m x y span).children.map (fun child => child.boxes.map f) =
        box.children.map fun child => child.boxes.map g :=
      map_placed (forall₂_children_place x y span box) ih
    rw [boxes_eq_cons, boxes_eq_cons, List.map_cons, List.map_cons, h, List.map_flatMap,
      List.map_flatMap, List.flatMap_def, List.flatMap_def, hchildren]

/-! ### Changed items -/

section

variable {f : Box α → Box β} {g : Box Placement → Box Placement} {items : List (Box α)}
  (h : ∀ item ∈ items, ∀ x y span, (f item).place m x y span = g (item.place m x y span))

include h

/-- What commutes with placing each item commutes with placing their row. -/
theorem placeRow_map (hwidth : ∀ item, (f item).width = item.width) (x y : Int) :
    placeRow m x y (items.map f) = (placeRow m x y items).map g := by
  induction items generalizing x with
  | nil => rfl
  | cons item rest ih =>
    rw [List.forall_mem_cons] at h
    rw [List.map_cons, placeRow, placeRow, List.map_cons, hwidth, h.1, ih h.2]

/-- What commutes with placing each item commutes with placing their stack. -/
theorem placeStack_map (x y span : Int) (offsets : List Int) :
    placeStack m x y span offsets (items.map f) = (placeStack m x y span offsets items).map g := by
  induction items generalizing offsets with
  | nil => rfl
  | cons item rest ih =>
    rw [List.forall_mem_cons] at h
    rw [List.map_cons, placeStack, placeStack, List.map_cons, h.1, ih h.2]

end

end SyntaxDiagram.Box
