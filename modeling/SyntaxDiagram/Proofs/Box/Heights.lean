import SyntaxDiagram.Proofs.Box.Spacing
import Mathlib.Data.List.Forall2

/-!
# Boxes of the same heights

How far the boxes of the builders reach up and down, and how their items are stacked, depends on
nothing but how far the items reach up and down (`SameHeights.ofItems`, `SameHeights.stacked`,
`SameHeights.repeated`, `SameHeights.offsets_eq`, `SameHeights.separators_eq`).
-/

namespace SyntaxDiagram.Box

variable {α : Type} {m : Metrics}

/-- Two boxes reach as far up, and as far down. -/
structure SameHeights (box box' : Box α) : Prop where
  up_eq : box.up = box'.up
  down_eq : box.down = box'.down

/-- What is the same for items that are related one by one is the same for the lists of them. -/
theorem map_eq_map_of_forall₂ {β : Type} {R : Box α → Box α → Prop} {f : Box α → β}
    {items items' : List (Box α)} (h : List.Forall₂ R items items')
    (hf : ∀ box box', R box box' → f box = f box') : items.map f = items'.map f := by
  rw [← List.forall₂_eq_eq_eq, List.forall₂_map_left_iff, List.forall₂_map_right_iff]
  exact h.imp fun {box box'} => hf box box'

namespace SameHeights

variable [Inhabited α]

/-- Lines over items of the same heights have the same heights. -/
theorem ofItems {items items' : List (Box α)} (h : List.Forall₂ SameHeights items items')
    (role : Role) : SameHeights (ofItems m role items) (ofItems m role items') := by
  cases h with
  | nil => exact ⟨rfl, rfl⟩
  | @cons first first' rest rest' hfirst hrest =>
    constructor
    · show greatest first.up (rest.map up) = greatest first'.up (rest'.map up)
      rw [hfirst.up_eq, map_eq_map_of_forall₂ hrest fun _ _ h => h.up_eq]
    · show greatest first.down (rest.map down) = greatest first'.down (rest'.map down)
      rw [hfirst.down_eq, map_eq_map_of_forall₂ hrest fun _ _ h => h.down_eq]

section stacked

variable {above above' below below' : List (Box α)} {main main' : Box α}
  (habove : List.Forall₂ SameHeights above above') (hmain : SameHeights main main')
  (hbelow : List.Forall₂ SameHeights below below')

omit [Inhabited α] in
include habove hmain in
theorem upperFan_eq : upperFan m above main = upperFan m above' main' := by
  rw [upperFan, upperFan, List.map_reverse, List.map_reverse, hmain.up_eq,
    map_eq_map_of_forall₂ habove fun _ _ h => by rw [h.up_eq, h.down_eq]]

omit [Inhabited α] in
include hmain hbelow in
theorem lowerFan_eq : lowerFan m main below = lowerFan m main' below' := by
  rw [lowerFan, lowerFan, hmain.down_eq,
    map_eq_map_of_forall₂ hbelow fun _ _ h => by rw [h.up_eq, h.down_eq]]

include habove hmain hbelow

/-- The offsets in a branch depend on its items by their heights alone. -/
theorem offsets_eq :
    (Box.stacked m above main below).offsets = (Box.stacked m above' main' below').offsets := by
  rw [offsets_stacked, offsets_stacked, upperFan_eq habove hmain, lowerFan_eq hmain hbelow]

/-- The separators in a branch depend on its items by their heights alone. -/
theorem separators_eq : (Box.stacked m above main below).separators =
    (Box.stacked m above' main' below').separators := by
  rw [separators_stacked, separators_stacked, upperFan_eq habove hmain, lowerFan_eq hmain hbelow]

/-- Branches over items of the same heights have the same heights. -/
theorem stacked :
    SameHeights (stacked m above main below) (Box.stacked m above' main' below') := by
  have hall : List.Forall₂ SameHeights (above ++ main :: below) (above' ++ main' :: below') :=
    List.rel_append habove (.cons hmain hbelow)
  have hoffsets := offsets_eq (m := m) habove hmain hbelow
  constructor
  · rw [up_stacked_eq_first, up_stacked_eq_first, hoffsets,
      map_eq_map_of_forall₂ hall fun _ _ h => h.up_eq]
  · rw [down_stacked_eq_last, down_stacked_eq_last, hoffsets, habove.length_eq, hbelow.length_eq,
      map_eq_map_of_forall₂ hall fun _ _ h => h.down_eq]

end stacked

/-- Loops over items of the same heights have the same heights. -/
theorem repeated {item item' : Box α} (h : SameHeights item item') :
    SameHeights (repeated m item) (Box.repeated m item') := by
  constructor
  · exact h.up_eq
  · show max (2 * m.arcRadius) (item.down + m.separation) =
      max (2 * m.arcRadius) (item'.down + m.separation)
    rw [h.down_eq]

end SameHeights

end SyntaxDiagram.Box
