import SyntaxDiagram.Proofs.Box.Heights
import SyntaxDiagram.Proofs.Box.Picture

/-!
# Boxes that look alike

Two boxes are alike when they have the same sizes and give the same picture wherever they are placed
(`Box.Alike`).  The builders make boxes that are alike out of items that are (`Alike.ofItems`,
`Alike.stacked`, `Alike.repeated`).  A line of a single item is like the item itself
(`Plain.alike_ofItems`), and a line in a line is like its items in its place (`alike_splice`).
-/

namespace SyntaxDiagram.Box

open Picture

variable {α : Type} {m : Metrics}

/-- Two boxes have the same sizes and are seen in the same way, wherever they are placed. -/
structure Alike (m : Metrics) (box box' : Box α) : Prop where
  width_eq : box.width = box'.width
  up_eq : box.up = box'.up
  down_eq : box.down = box'.down
  branchRole_eq : box.branchRole = box'.branchRole
  picture_eq : ∀ x y span, (box.place m x y span).picture = (box'.place m x y span).picture

theorem Alike.refl (box : Box α) : Alike m box box :=
  ⟨rfl, rfl, rfl, rfl, fun _ _ _ => rfl⟩

/-- Boxes that are like the same box are like each other. -/
theorem Alike.trans {box box' box'' : Box α} (h : Alike m box box') (h' : Alike m box' box'') :
    Alike m box box'' :=
  ⟨h.width_eq.trans h'.width_eq, h.up_eq.trans h'.up_eq, h.down_eq.trans h'.down_eq,
    h.branchRole_eq.trans h'.branchRole_eq,
    fun x y span => (h.picture_eq x y span).trans (h'.picture_eq x y span)⟩

theorem Alike.sameHeights {box box' : Box α} (h : Alike m box box') : SameHeights box box' :=
  ⟨h.up_eq, h.down_eq⟩

/-! ### Items that are alike one by one -/

section items

variable {items items' : List (Box α)} (h : List.Forall₂ (Alike m) items items')

include h

/-- Led items may be replaced by others like them. -/
theorem led_eq_of_alike (x y : Int) : led m x y items = led m x y items' := by
  induction h generalizing x with
  | nil => rfl
  | cons hitem _ ih => rw [led, led, hitem.width_eq, hitem.picture_eq, ih]

/-- Lined items may be replaced by others like them. -/
theorem lined_eq_of_alike (x y : Int) : lined m x y items = lined m x y items' := by
  cases h with
  | nil => rfl
  | cons hfirst hrest =>
    rw [lined, lined, hfirst.width_eq, hfirst.picture_eq, led_eq_of_alike hrest]

/-- Stacked items may be replaced by others like them, at the same offsets. -/
theorem map_picture_placeStack_of_alike (x y span : Int) (offsets : List Int) :
    (placeStack m x y span offsets items).map picture =
      (placeStack m x y span offsets items').map picture := by
  induction h generalizing offsets with
  | nil => rfl
  | cons hitem _ ih =>
    rw [placeStack, placeStack, List.map_cons, List.map_cons, hitem.picture_eq, ih]

end items

variable [Inhabited α]

/-! ### Builders -/

/-- Lines over items that are alike are alike. -/
theorem Alike.ofItems {items items' : List (Box α)} (h : List.Forall₂ (Alike m) items items') :
    Alike m (ofItems m .line items) (ofItems m .line items') := by
  cases h with
  | nil => exact .refl _
  | @cons first first' rest rest' hfirst hrest =>
    have hall : List.Forall₂ (Alike m) (first :: rest) (first' :: rest') := .cons hfirst hrest
    have hne : first :: rest ≠ [] := List.cons_ne_nil first rest
    have hne' : first' :: rest' ≠ [] := List.cons_ne_nil first' rest'
    have hwidth : (Box.ofItems m .line (first :: rest)).width =
        (Box.ofItems m .line (first' :: rest')).width := by
      rw [width_ofItems _ hne, width_ofItems _ hne', ledWidth, ledWidth,
        map_eq_map_of_forall₂ hall fun _ _ h => by rw [h.width_eq]]
    have hheights : SameHeights (Box.ofItems m .line (first :: rest))
        (Box.ofItems m .line (first' :: rest')) :=
      SameHeights.ofItems (hall.imp fun {_ _} h => h.sameHeights) .line
    refine ⟨hwidth, hheights.up_eq, hheights.down_eq, rfl, fun x y span => ?_⟩
    rw [picture_ofItems _ _ _ hne, picture_ofItems _ _ _ hne', hwidth, lined_eq_of_alike hall]

section stacked

variable {above above' below below' : List (Box α)} {main main' : Box α}
  (habove : List.Forall₂ (Alike m) above above') (hmain : Alike m main main')
  (hbelow : List.Forall₂ (Alike m) below below')

include habove hmain hbelow

/-- Branches over items that are alike are alike. -/
theorem Alike.stacked : Alike m (stacked m above main below) (stacked m above' main' below') := by
  have hall : List.Forall₂ (Alike m) (above ++ main :: below) (above' ++ main' :: below') :=
    List.rel_append habove (.cons hmain hbelow)
  have habove' := habove.imp fun {_ _} h => h.sameHeights
  have hbelow' := hbelow.imp fun {_ _} h => h.sameHeights
  have hheights := SameHeights.stacked (m := m) habove' hmain.sameHeights hbelow'
  have hoffsets := SameHeights.offsets_eq (m := m) habove' hmain.sameHeights hbelow'
  have hwidth : (Box.stacked m above main below).width =
      (Box.stacked m above' main' below').width := by
    show 4 * m.arcRadius + greatest main.width ((above ++ below).map width) =
      4 * m.arcRadius + greatest main'.width ((above' ++ below').map width)
    rw [hmain.width_eq,
      map_eq_map_of_forall₂ (List.rel_append habove hbelow) fun _ _ h => h.width_eq]
  refine ⟨hwidth, hheights.up_eq, hheights.down_eq, rfl, fun x y span => ?_⟩
  rw [picture_stacked, picture_stacked, hwidth, hoffsets,
    map_eq_map_of_forall₂ hall fun _ _ h => h.branchRole_eq, map_picture_placeStack_of_alike hall]

end stacked

/-- Loops over items that are alike are alike. -/
theorem Alike.repeated {item item' : Box α} (h : Alike m item item') :
    Alike m (repeated m item) (repeated m item') := by
  have hwidth : (Box.repeated m item).width = (Box.repeated m item').width := by
    show item.width + 2 * m.arcRadius = item'.width + 2 * m.arcRadius
    rw [h.width_eq]
  have hdown := (SameHeights.repeated (m := m) h.sameHeights).down_eq
  refine ⟨hwidth, h.up_eq, hdown, rfl, fun x y span => ?_⟩
  rw [picture_repeated, picture_repeated, hwidth, hdown, h.picture_eq]

/-! ### A line of a single item -/

/-- The gaps around the box are filled by plain track, so it makes no difference whether they belong
to the box or to a line around it. -/
structure Plain (m : Metrics) (box : Box α) : Prop where
  branchRole_eq : box.branchRole = .branch
  picture_eq : ∀ x y span, (box.place m x y span).picture =
    ofTracks (gapTracks m .line x y span box.width) +
      (box.place m (x + leftGap m span box.width) y box.width).picture

-- in each case the second box is placed at its own width, where it has no gaps
theorem plain_ofLabel (kind : LabelKind) (text : String) (textWidth : Int) :
    Plain m (ofLabel m kind text textWidth : Box α) := by
  refine ⟨rfl, fun x y span => ?_⟩
  have hwidth : (ofLabel m kind text textWidth : Box α).width = textWidth + m.labelPadding := rfl
  rw [hwidth, picture_ofLabel, picture_ofLabel, gapTracks_self, leftGap_self, add_zero,
    ofTracks_nil, zero_add]

/-- A line with items in it is plain. -/
theorem plain_ofItems {items : List (Box α)} (h : items ≠ []) :
    Plain m (ofItems m .line items) := by
  refine ⟨?_, fun x y span => ?_⟩
  · obtain ⟨first, rest, rfl⟩ := List.exists_cons_of_ne_nil h
    rfl
  · rw [picture_ofItems_self _ _ h, picture_ofItems _ _ _ h]

theorem plain_stacked (above : List (Box α)) (main : Box α) (below : List (Box α)) :
    Plain m (stacked m above main below) := by
  refine ⟨rfl, fun x y span => ?_⟩
  rw [picture_stacked, picture_stacked, gapTracks_self, leftGap_self, add_zero, ofTracks_nil,
    zero_add]

theorem plain_repeated (item : Box α) : Plain m (repeated m item) := by
  refine ⟨rfl, fun x y span => ?_⟩
  rw [picture_repeated, picture_repeated, gapTracks_self, leftGap_self, add_zero, ofTracks_nil,
    zero_add]

/-- A line of a single plain item is like the item. -/
theorem Plain.alike_ofItems {box : Box α} (h : Plain m box) :
    Alike m box (ofItems m .line [box]) := by
  have hwidth := width_ofItems_singleton (m := m) .line box
  refine ⟨hwidth.symm, rfl, rfl, h.branchRole_eq, fun x y span => ?_⟩
  rw [picture_ofItems _ _ _ (List.cons_ne_nil box []), hwidth, h.picture_eq, lined, led, add_zero]

/-! ### A line in a line -/

omit [Inhabited α] in
/-- The greatest size reaches a bound iff the size of some item does. -/
theorem le_greatest_map_iff (size : Box α → Int) {first : Box α} {rest : List (Box α)}
    {bound : Int} :
    bound ≤ greatest (size first) (rest.map size) ↔ ∃ item ∈ first :: rest, bound ≤ size item := by
  rw [le_greatest_iff, List.exists_mem_cons_iff]
  simp only [List.mem_map, exists_exists_and_eq_and]

/-- A line rises up to a bound iff some item does. -/
theorem le_up_ofItems_iff {items : List (Box α)} (h : items ≠ []) (role : Role) {bound : Int} :
    bound ≤ (ofItems m role items).up ↔ ∃ item ∈ items, bound ≤ item.up := by
  obtain ⟨first, rest, rfl⟩ := List.exists_cons_of_ne_nil h
  exact le_greatest_map_iff up

/-- A line reaches down to a bound iff some item does. -/
theorem le_down_ofItems_iff {items : List (Box α)} (h : items ≠ []) (role : Role) {bound : Int} :
    bound ≤ (ofItems m role items).down ↔ ∃ item ∈ items, bound ≤ item.down := by
  obtain ⟨first, rest, rfl⟩ := List.exists_cons_of_ne_nil h
  exact le_greatest_map_iff down

/-- A line in a line is like its items in its place. -/
theorem alike_splice (before : List (Box α)) {items : List (Box α)} (h : items ≠ [])
    (after : List (Box α)) :
    Alike m (ofItems m .line (before ++ ofItems m .line items :: after))
      (ofItems m .line (before ++ items ++ after)) := by
  have hne : before ++ ofItems m .line items :: after ≠ [] := by simp
  have hne' : before ++ items ++ after ≠ [] := by simp [h]
  have hwidth : (ofItems m .line (before ++ ofItems m .line items :: after)).width =
      (ofItems m .line (before ++ items ++ after)).width := by
    rw [width_ofItems _ hne, width_ofItems _ hne', ledWidth_splice _ h]
  -- the greatest size of all items is found among those of the inner line or beside it
  refine ⟨hwidth, eq_of_forall_le_iff fun bound => ?_, eq_of_forall_le_iff fun bound => ?_, ?_,
    fun x y span => ?_⟩
  · rw [le_up_ofItems_iff hne, le_up_ofItems_iff hne']
    simp only [List.mem_append, List.mem_cons, or_and_right, exists_or, exists_eq_left,
      le_up_ofItems_iff h, or_assoc]
  · rw [le_down_ofItems_iff hne, le_down_ofItems_iff hne']
    simp only [List.mem_append, List.mem_cons, or_and_right, exists_or, exists_eq_left,
      le_down_ofItems_iff h, or_assoc]
  · rw [(plain_ofItems hne).branchRole_eq, (plain_ofItems hne').branchRole_eq]
  · rw [picture_ofItems _ _ _ hne, picture_ofItems _ _ _ hne', hwidth, lined_splice _ _ _ h]

end SyntaxDiagram.Box
