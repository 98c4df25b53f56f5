import SyntaxDiagram.Proofs.Box.Built
import SyntaxDiagram.Proofs.Box.Tree
import SyntaxDiagram.Proofs.Geometry.Stroke

/-!
# Slots

A slot is a box with the stretch of track on which it is to be placed.  Placing it draws the tracks
of the box itself and puts its children into slots of their own (`Slot.slots`, `children_place`), so
that a placed tree is unfolded one slot at a time (`boxes_place`, `connectors_place`), and a
property of all placed trees is proved by going from the slots of a box to its own
(`Slot.Valid.induction`).
-/

namespace SyntaxDiagram

/-- The rectangle of a placed box. -/
def Box.rect (box : Box Placement) : Rect :=
  ⟨box.frame.place.x, box.frame.place.x + box.width, box.frame.place.y - box.up,
    box.frame.place.y + box.down⟩

/-- A box, the point where the track for it begins, and the length of that track. -/
structure Slot (α : Type) where
  x : Int
  y : Int
  span : Int
  item : Box α

namespace Slot

variable {α : Type}

/-- The box of a slot in its place. -/
def place (m : Metrics) (s : Slot α) : Box Placement :=
  s.item.place m s.x s.y s.span

/-- The room that a slot takes: the whole length of its track, at the height of its box. -/
def region (s : Slot α) : Rect :=
  ⟨s.x, s.x + s.span, s.y - s.item.up, s.y + s.item.down⟩

/-- The connectors that are drawn for the box of a slot itself. -/
def tracks (m : Metrics) (s : Slot α) : List Connector :=
  (s.place m).frame.place.connectors

/-! ### Slots of the children -/

/-- The slots of boxes side by side. -/
def row (m : Metrics) (x y : Int) : List (Box α) → List (Slot α)
  | [] => []
  | item :: rest => ⟨x, y, item.width, item⟩ :: row m (x + item.width + m.itemGap) y rest

/-- The slots of boxes stacked at offsets. -/
def stack (x y span : Int) (tiers : List (Int × Box α)) : List (Slot α) :=
  tiers.map fun t => ⟨x, y + t.1, span, t.2⟩

/-- The slots that the children of a box get when the box is placed. -/
def slots (m : Metrics) (s : Slot α) : List (Slot α) :=
  let x := s.x + Box.leftGap m s.span s.item.width
  match s.item with
  | .label .. => []
  | .line _ _ items => row m x s.y items
  | .branch frame _ _ offsets items =>
    stack (x + 2 * m.arcRadius) s.y (frame.width - 4 * m.arcRadius) (offsets.zip items)
  | .loop frame _ item => [⟨x + m.arcRadius, s.y, frame.width - 2 * m.arcRadius, item⟩]

/-- Placing a row is placing each of its slots. -/
theorem placeRow_eq_map (m : Metrics) (x y : Int) (items : List (Box α)) :
    Box.placeRow m x y items = (row m x y items).map (place m) := by
  induction items generalizing x with
  | nil => rfl
  | cons item rest ih => rw [Box.placeRow, row, List.map_cons, ih, place]

/-- Placing a stack is placing each of its slots. -/
theorem placeStack_eq_map (m : Metrics) (x y span : Int) {offsets : List Int}
    {items : List (Box α)} (h : offsets.length = items.length) :
    Box.placeStack m x y span offsets items =
      (stack x y span (offsets.zip items)).map (place m) := by
  induction items generalizing offsets with
  | nil => rw [List.zip_nil_right]; rfl
  | cons item rest ih =>
    obtain ⟨offset, offsets, rfl⟩ := List.exists_cons_of_length_eq_add_one h
    simp only [Box.placeStack, List.headD_cons, List.tail_cons, ih (Nat.succ.inj h),
      List.zip_cons_cons, stack, List.map_cons, place]

/-- A slot of a row has an item of the row, stands on the row's track and is as wide as its item. -/
theorem mem_row {m : Metrics} {x y : Int} {items : List (Box α)} {t : Slot α}
    (h : t ∈ row m x y items) : t.item ∈ items ∧ t.y = y ∧ t.span = t.item.width := by
  induction items generalizing x with
  | nil => exact absurd h List.not_mem_nil
  | cons item rest ih =>
    rcases List.mem_cons.mp h with rfl | h
    · exact ⟨List.mem_cons_self .., rfl, rfl⟩
    · obtain ⟨hmem, hy, hspan⟩ := ih h
      exact ⟨List.mem_cons_of_mem _ hmem, hy, hspan⟩

/-- The slots inside a slot hold children of its item. -/
theorem item_mem_children {m : Metrics} {s t : Slot α} (h : t ∈ s.slots m) :
    t.item ∈ s.item.children := by
  obtain ⟨x, y, span, item⟩ := s
  cases item with
  | label frame kind text => exact absurd h List.not_mem_nil
  | line frame role items => exact (mem_row h).1
  | branch frame mainIndex separators offsets items =>
    obtain ⟨tier, htier, rfl⟩ := List.mem_map.mp h
    exact (List.of_mem_zip htier).2
  | loop frame offset item =>
    obtain rfl := List.mem_singleton.mp h
    exact List.mem_cons_self ..

/-! ### Valid slots -/

variable [Inhabited α] {m : Metrics}

/-- The box was made by the builders and fits on the track. -/
structure Valid (m : Metrics) (s : Slot α) : Prop where
  built : s.item.Built m
  fits : s.item.width ≤ s.span

/-- A property of valid slots follows from one for each of the builders. -/
@[cases_eliminator]
theorem Valid.cases {P : ∀ s : Slot α, s.Valid m → Prop}
    (label : ∀ x y span kind text textWidth (pos : 0 < textWidth)
      (fits : (Box.ofLabel m kind text textWidth : Box α).width ≤ span),
      P ⟨x, y, span, .ofLabel m kind text textWidth⟩ ⟨.label kind text pos, fits⟩)
    (line : ∀ x y span role items (built : ∀ item ∈ items, Box.Built m item)
      (fits : (Box.ofItems m role items).width ≤ span),
      P ⟨x, y, span, .ofItems m role items⟩ ⟨.line role built, fits⟩)
    (stacked : ∀ x y span above main below
      (built : ∀ item ∈ above ++ main :: below, Box.Built m item)
      (fits : (Box.stacked m above main below).width ≤ span),
      P ⟨x, y, span, .stacked m above main below⟩ ⟨.stacked built, fits⟩)
    (repeated : ∀ x y span item (built : Box.Built m item)
      (fits : (Box.repeated m item).width ≤ span),
      P ⟨x, y, span, .repeated m item⟩ ⟨.repeated built, fits⟩)
    {s : Slot α} (h : s.Valid m) : P s h := by
  obtain ⟨x, y, span, item⟩ := s
  obtain ⟨hbuilt, hfits⟩ := h
  dsimp only at hbuilt hfits
  cases hbuilt with
  | label kind text pos => exact label _ _ _ _ _ _ pos hfits
  | line role built => exact line _ _ _ _ _ built hfits
  | stacked built => exact stacked _ _ _ _ _ _ built hfits
  | repeated built => exact repeated _ _ _ _ built hfits

/-- The items of a line stand in a row that starts after the line's left gap. -/
theorem slots_ofItems (x y span : Int) (role : Role) (items : List (Box α)) :
    slots m ⟨x, y, span, .ofItems m role items⟩ =
      row m (x + Box.leftGap m span (Box.ofItems m role items).width) y items := by
  cases items <;> rfl

/-- The items of a branch stand one arc's diameter inside it on either side. -/
theorem slots_stacked (x y span : Int) (above : List (Box α)) (main : Box α)
    (below : List (Box α)) :
    slots m ⟨x, y, span, .stacked m above main below⟩ =
      stack (x + Box.leftGap m span (Box.stacked m above main below).width + 2 * m.arcRadius) y
        ((Box.stacked m above main below).width - 4 * m.arcRadius)
        (Box.stacked m above main below).tiers := rfl

/-- The item of a loop stands one arc's radius inside it on either side. -/
theorem slots_repeated (x y span : Int) (item : Box α) :
    slots m ⟨x, y, span, .repeated m item⟩ =
      [⟨x + Box.leftGap m span (Box.repeated m item).width + m.arcRadius, y,
        (Box.repeated m item).width - 2 * m.arcRadius, item⟩] := rfl

/-! ### Tracks of the builders -/

theorem tracks_ofLabel (x y span : Int) (kind : LabelKind) (text : String) (textWidth : Int) :
    tracks m ⟨x, y, span, (.ofLabel m kind text textWidth : Box α)⟩ =
      Box.gapTracks m .line x y span (Box.ofLabel m kind text textWidth : Box α).width := rfl

theorem tracks_ofItems_nil (x y span : Int) (role : Role) :
    tracks m ⟨x, y, span, (.ofItems m role [] : Box α)⟩ =
      if span = 0 then [] else [.right x y role span] := rfl

theorem tracks_ofItems_cons (x y span : Int) (role : Role) (first : Box α)
    (rest : List (Box α)) :
    tracks m ⟨x, y, span, .ofItems m role (first :: rest)⟩ =
      Box.gapTracks m role x y span (Box.ofItems m role (first :: rest)).width ++
        Box.joinTracks m role
          (x + Box.leftGap m span (Box.ofItems m role (first :: rest)).width + first.width) y
          (rest.map Box.width) := rfl

theorem tracks_stacked (x y span : Int) (above : List (Box α)) (main : Box α)
    (below : List (Box α)) :
    tracks m ⟨x, y, span, .stacked m above main below⟩ =
      Box.gapTracks m .line x y span (Box.stacked m above main below).width ++
        (Box.stacked m above main below).tiers.flatMap fun t =>
          Box.itemTracks m (x + Box.leftGap m span (Box.stacked m above main below).width) y
            ((Box.stacked m above main below).width - 4 * m.arcRadius) t.1 t.2.branchRole := by
  have h : tracks m ⟨x, y, span, .stacked m above main below⟩ =
      Box.gapTracks m .line x y span (Box.stacked m above main below).width ++
        ((Box.stacked m above main below).offsets.zip
          ((above ++ main :: below).map Box.branchRole)).flatMap fun t =>
            Box.itemTracks m (x + Box.leftGap m span (Box.stacked m above main below).width) y
              ((Box.stacked m above main below).width - 4 * m.arcRadius) t.1 t.2 := rfl
  -- the role of the tracks to and from an item depends on the item alone
  rw [h, List.zip_map_right, List.flatMap_map]
  rfl

theorem tracks_repeated (x y span : Int) (item : Box α) :
    tracks m ⟨x, y, span, .repeated m item⟩ =
      Box.gapTracks m .line x y span (Box.repeated m item).width ++
        Box.loopTracks m (x + Box.leftGap m span (Box.repeated m item).width) y
          (Box.repeated m item).width (Box.repeated m item).down := rfl

/-! ### Unfolding a placed tree -/

/-- The children of a placed box are its slots, placed. -/
theorem children_place {s : Slot α} (h : s.Valid m) :
    (s.place m).children = (s.slots m).map (place m) := by
  cases h with
  | label => rfl
  | line x y span role items =>
    cases items with
    | nil => rfl
    | cons first rest => exact placeRow_eq_map ..
  | stacked => exact placeStack_eq_map _ _ _ _ (by simp [length_fan])
  | repeated => rfl

/-- The boxes of a placed box are itself and the boxes of its slots. -/
theorem boxes_place {s : Slot α} (h : s.Valid m) :
    (s.place m).boxes = s.place m :: (s.slots m).flatMap fun t => (t.place m).boxes := by
  rw [Box.boxes_eq_cons, children_place h, List.flatMap_map]

/-- The connectors of a placed box are its own tracks and the connectors of its slots. -/
theorem connectors_place {s : Slot α} (h : s.Valid m) :
    (s.place m).connectors =
      s.tracks m ++ (s.slots m).flatMap fun t => (t.place m).connectors := by
  rw [Box.connectors, boxes_place h, List.flatMap_cons, List.flatMap_assoc]
  rfl

/-- Validity passes to the slots inside a slot, which is what an induction over slots needs. -/
theorem valid_of_mem_slots {s t : Slot α} (h : s.Valid m) (ht : t ∈ s.slots m) : t.Valid m := by
  refine ⟨h.built.of_mem_children (item_mem_children ht), ?_⟩
  cases h with
  | label => exact absurd ht List.not_mem_nil
  | line x y span role items =>
    rw [slots_ofItems] at ht
    exact (mem_row ht).2.2.ge
  | stacked x y span above main below =>
    rw [slots_stacked] at ht
    -- no item is wider than what the arcs on both sides leave of the branch
    obtain ⟨tier, htier, rfl⟩ := List.mem_map.mp ht
    exact Box.width_le_of_mem_stacked (Box.mem_of_mem_tiers_stacked htier)
  | repeated x y span item =>
    rw [slots_repeated] at ht
    obtain rfl := List.mem_singleton.mp ht
    have hwidth : (Box.repeated m item).width = item.width + 2 * m.arcRadius := rfl
    dsimp only
    omega

/-- Induction on valid slots, from the slots of the children of a box to its own. -/
@[induction_eliminator]
theorem Valid.induction {P : ∀ s : Slot α, s.Valid m → Prop}
    (step : ∀ s (h : s.Valid m),
      (∀ t (ht : t ∈ s.slots m), P t (valid_of_mem_slots h ht)) → P s h)
    {s : Slot α} (h : s.Valid m) : P s h := by
  obtain ⟨x, y, span, item⟩ := s
  -- the slots of the children hold smaller boxes, wherever they are
  induction item using Box.induction generalizing x y span with
  | step item ih =>
    refine step _ h fun t ht => ?_
    exact ih t.item (item_mem_children ht) t.x t.y t.span (valid_of_mem_slots h ht)

end Slot

end SyntaxDiagram
