import SyntaxDiagram.Proofs.Geometry.Slot

/-!
# The room of a box

What placing one box does, given a slot for it.  The box stays in its slot
(`rect_place_subset_region`), the slots of its children in the box (`region_subset_rect_place`) and
apart from each other (`pairwise_apart_slots`).  The tracks of the box stay in its slot and out of
those of the children (`tracks_spec`).
-/

namespace SyntaxDiagram

namespace Slot

variable {α : Type} {m : Metrics}

/-! ### Where the box is -/

/-- Where a box is entered: behind the gap, which a bare track does not have. -/
def left (m : Metrics) (s : Slot α) : Int :=
  s.x + if s.item.isBareTrack then 0 else Box.leftGap m s.span s.item.width

/-- A placed box has its own width and elevations, whatever the span of its slot. -/
theorem rect_place (s : Slot α) :
    (s.place m).rect =
      ⟨s.left m, s.left m + s.item.width, s.y - s.item.up, s.y + s.item.down⟩ := by
  obtain ⟨x, y, span, item⟩ := s
  cases item <;> rfl

/-- Unless the item is a bare track, which fills its slot, it stands after the left gap. -/
theorem left_eq {s : Slot α} (h : s.item.isBareTrack = false) :
    s.left m = s.x + Box.leftGap m s.span s.item.width := by
  rw [left, h]
  rfl

/-- An item that fits stands within the span of its slot. -/
theorem left_bounds {s : Slot α} (hfits : s.item.width ≤ s.span) :
    s.x ≤ s.left m ∧ s.left m + s.item.width ≤ s.x + s.span := by
  have h₁ := Box.leftGap_nonneg (m := m) hfits
  have h₂ := Box.leftGap_add_le (m := m) hfits
  rw [left]
  split_ifs <;> omega

theorem rect_place_subset_region {s : Slot α} (hfits : s.item.width ≤ s.span) :
    (s.place m).rect ⊆ s.region := by
  have h := left_bounds (m := m) hfits
  rw [rect_place, region]
  exact ⟨h.1, h.2, le_rfl, le_rfl⟩

end Slot

/-! ### Rows -/

namespace Slot

variable {α : Type} [Inhabited α] {m : Metrics}

/-- The slots of a row follow one another, and none ends behind the row. -/
theorem bounds_of_mem_row (hm : m.Nonneg) (role : Role) {x y : Int} {items : List (Box α)}
    (hitems : ∀ item ∈ items, 0 ≤ item.width) :
    ∀ t ∈ row m x y items, x ≤ t.x ∧ t.x + t.span ≤ x + (Box.ofItems m role items).width := by
  induction items generalizing x with
  | nil => simp [row]
  | cons first rest ih =>
    have hgap := hm.itemGap
    have hfirst := hitems first (List.mem_cons_self ..)
    have hrest := fun item hitem => hitems item (List.mem_cons_of_mem first hitem)
    intro t ht
    cases rest with
    | nil =>
      obtain rfl := List.mem_singleton.mp ht
      rw [Box.width_ofItems_singleton]
      exact ⟨le_rfl, le_rfl⟩
    | cons second rest =>
      have hwidth := Box.width_ofItems_nonneg hgap role hrest
      rw [Box.width_ofItems_cons_cons]
      rcases List.mem_cons.mp ht with rfl | ht
      · dsimp only
        omega
      · -- the row of the rest starts behind the first item and the gap
        have h := ih hrest t ht
        omega

/-- The gap between two items keeps the slots of a row apart. -/
theorem pairwise_row (hm : m.Nonneg) {x y : Int} {items : List (Box α)}
    (hitems : ∀ item ∈ items, 0 ≤ item.width) :
    (row m x y items).Pairwise fun t u => t.x + t.span + m.itemGap ≤ u.x := by
  induction items generalizing x with
  | nil => exact List.Pairwise.nil
  | cons first rest ih =>
    have hrest := fun item hitem => hitems item (List.mem_cons_of_mem first hitem)
    rw [row, List.pairwise_cons]
    exact ⟨fun u hu => (bounds_of_mem_row hm .line hrest u hu).1, ih hrest⟩

/-- The track in front of each further item of a row is as long as the gap, and lies inside of the
row beside every slot of it. -/
theorem joins_of_mem_joinTracks (hm : m.Nonneg) {role : Role} {x y : Int} {first : Box α}
    {rest : List (Box α)} (hitems : ∀ item ∈ first :: rest, 0 ≤ item.width) {c : Connector}
    (hc : c ∈ Box.joinTracks m role (x + first.width) y (rest.map Box.width)) :
    ∃ a, c.Joins m.arcRadius (a, y) (a + m.itemGap, y) ∧ x ≤ a ∧
      a + m.itemGap ≤ x + (Box.ofItems m role (first :: rest)).width ∧
      ∀ t ∈ row m x y (first :: rest), t.x + t.span ≤ a ∨ a + m.itemGap ≤ t.x := by
  have hgap := hm.itemGap
  induction rest generalizing x first with
  | nil => exact absurd hc List.not_mem_nil
  | cons second rest ih =>
    have hfirst := hitems first (List.mem_cons_self ..)
    have hrest := fun item hitem => hitems item (List.mem_cons_of_mem first hitem)
    have hwidth := Box.width_ofItems_nonneg hgap role hrest
    rw [Box.width_ofItems_cons_cons]
    rw [List.map_cons, Box.joinTracks] at hc
    rcases List.mem_cons.mp hc with rfl | hc
    · -- the first track leads from the first item to the row of the rest
      have hbounds := bounds_of_mem_row hm role (x := x + first.width + m.itemGap) (y := y) hrest
      refine ⟨x + first.width, Connector.joins_horizontal .., by omega, by omega, fun t ht => ?_⟩
      rcases List.mem_cons.mp ht with rfl | ht
      · exact Or.inl le_rfl
      · exact Or.inr (hbounds t ht).1
    · -- any other one is a track of the row of the rest
      obtain ⟨a, hjoins, hleft, hright, hslots⟩ := ih hrest hc
      refine ⟨a, hjoins, by omega, by omega, fun t ht => ?_⟩
      rcases List.mem_cons.mp ht with rfl | ht
      · refine Or.inl ?_
        dsimp only
        omega
      · exact hslots t ht

/-! ### Slots of the children -/

/-- The children of a valid slot's item have no negative size. -/
theorem Valid.nonneg_children (hm : m.Nonneg) {s : Slot α} (h : s.Valid m) :
    ∀ child ∈ s.item.children, 0 ≤ child.width ∧ 0 ≤ child.up ∧ 0 ≤ child.down :=
  fun _ hchild => (h.built.of_mem_children hchild).nonneg hm

/-- The slots of the children of a box are inside of the box. -/
theorem region_subset_rect_place (hm : m.Nonneg) {s t : Slot α} (h : s.Valid m)
    (ht : t ∈ s.slots m) : t.region ⊆ (s.place m).rect := by
  have hr := hm.arcRadius
  rw [rect_place]
  cases h with
  | label => exact absurd ht List.not_mem_nil
  | line x y span role items hbuilt =>
    cases items with
    | nil => exact absurd ht List.not_mem_nil
    | cons first rest =>
      have hwidth := fun item hitem => ((hbuilt item hitem).nonneg hm).1
      obtain ⟨hmem, hy, -⟩ := mem_row ht
      have hbounds := bounds_of_mem_row hm role hwidth t ht
      have hup := Box.up_le_up_ofItems (m := m) role hmem
      have hdown := Box.down_le_down_ofItems (m := m) role hmem
      rw [region, hy]
      exact ⟨hbounds.1, hbounds.2, by dsimp only; omega, by dsimp only; omega⟩
  | stacked x y span above main below hbuilt =>
    have hsizes := fun item hitem => ((hbuilt item hitem).nonneg hm).2
    -- the sizes of a branch bound its items at their offsets
    rw [slots_stacked] at ht
    obtain ⟨tier, htier, rfl⟩ := List.mem_map.mp ht
    have hup := Box.up_le_of_mem_tiers_stacked hm.separation hsizes htier
    have hdown := Box.le_down_of_mem_tiers_stacked hm.separation hsizes htier
    rw [left_eq rfl]
    simp only [region, Rect.subset_iff]
    omega
  | repeated x y span item =>
    rw [slots_repeated] at ht
    obtain rfl := List.mem_singleton.mp ht
    have hsep := hm.separation
    have hup : (Box.repeated m item).up = item.up := rfl
    have hdown : (Box.repeated m item).down =
        max (2 * m.arcRadius) (item.down + m.separation) := rfl
    rw [left_eq rfl]
    simp only [region, Rect.subset_iff]
    omega

/-- The slots of the children of a box keep apart from each other. -/
theorem pairwise_apart_slots (hm : m.Spaced) {s : Slot α} (h : s.Valid m) :
    (s.slots m).Pairwise fun t u => t.region.Apart u.region := by
  have hgap := hm.itemGap_pos
  have hsep := hm.separation_pos
  cases h with
  | label => exact List.Pairwise.nil
  | line x y span role items hbuilt =>
    have hwidth := fun item hitem => ((hbuilt item hitem).nonneg hm.toNonneg).1
    rw [slots_ofItems]
    refine (pairwise_row hm.toNonneg hwidth).imp fun {t u} htu => Or.inl ?_
    dsimp only [region]
    omega
  | stacked x y span above main below hbuilt =>
    have hsizes := fun item hitem => ((hbuilt item hitem).nonneg hm.toNonneg).2
    rw [slots_stacked, stack, List.pairwise_map]
    refine (Box.pairwise_tiers_stacked hsep.le hsizes).imp fun {t u} htu => Or.inr (Or.inr ?_)
    simp only [Box.Clears] at htu
    dsimp only [region]
    omega
  | repeated => exact List.pairwise_singleton ..

/-! ### Tracks -/

/-- The gaps on both sides of a box are filled inside of the slot and beside the box. -/
theorem gapTracks_spec (hm : m.Nonneg) {role : Role} {s : Slot α} (h : s.Valid m)
    (hbare : s.item.isBareTrack = false) {c : Connector}
    (hc : c ∈ Box.gapTracks m role s.x s.y s.span s.item.width) :
    c.StaysIn m.arcRadius s.region ∧ c.Skirts m.arcRadius (s.place m).rect := by
  have hsizes := h.built.nonneg hm
  have hbounds := left_bounds (m := m) h.fits
  rw [rect_place]
  rw [left_eq hbare] at hbounds ⊢
  rcases Box.joins_of_mem_gapTracks hc m.arcRadius with hjoins | hjoins
  · refine ⟨hjoins.staysIn ?_ ?_, hjoins.skirts (Or.inl ?_)⟩
    · simp only [region, Rect.mem_iff]
      omega
    · simp only [region, Rect.mem_iff]
      omega
    · simp only [Rect.spanning]
      omega
  · refine ⟨hjoins.staysIn ?_ ?_, hjoins.skirts (Or.inr (Or.inl ?_))⟩
    · simp only [region, Rect.mem_iff]
      omega
    · simp only [region, Rect.mem_iff]
      omega
    · simp only [Rect.spanning]
      omega

/-- The tracks between the items of a line are inside of it, and beside all of the items. -/
theorem joinTracks_spec (hm : m.Nonneg) {x y span : Int} {role : Role} {first : Box α}
    {rest : List (Box α)} (hbuilt : ∀ item ∈ first :: rest, Box.Built m item) {c : Connector}
    (hc : c ∈ Box.joinTracks m role
      (x + Box.leftGap m span (Box.ofItems m role (first :: rest)).width + first.width) y
      (rest.map Box.width)) :
    c.StaysIn m.arcRadius (place m ⟨x, y, span, .ofItems m role (first :: rest)⟩).rect ∧
      ∀ t ∈ slots m ⟨x, y, span, .ofItems m role (first :: rest)⟩,
        c.Skirts m.arcRadius t.region := by
  have hgap := hm.itemGap
  have hbox := (Box.Built.line role hbuilt).nonneg hm
  have hwidth := fun item hitem => ((hbuilt item hitem).nonneg hm).1
  obtain ⟨a, hjoins, hleft, hright, hslots⟩ := joins_of_mem_joinTracks hm hwidth hc
  rw [rect_place, left_eq rfl, slots_ofItems]
  refine ⟨hjoins.staysIn ?_ ?_, fun t ht => hjoins.skirts ?_⟩
  · simp only [Rect.mem_iff]
    omega
  · simp only [Rect.mem_iff]
    omega
  · have ht' := hslots t ht
    simp only [Rect.spanning, region, Rect.Skirts]
    omega

/-- The tracks to and from the items of a branch are inside of it, and beside all of the items. -/
theorem itemTracks_spec (hm : m.Nonneg) {x y span : Int} {above below : List (Box α)}
    {main : Box α} (hbuilt : ∀ item ∈ above ++ main :: below, Box.Built m item)
    {tier : Int × Box α} (htier : tier ∈ (Box.stacked m above main below).tiers) {c : Connector}
    (hc : c ∈ Box.itemTracks m
      (x + Box.leftGap m span (Box.stacked m above main below).width) y
      ((Box.stacked m above main below).width - 4 * m.arcRadius) tier.1 tier.2.branchRole) :
    c.StaysIn m.arcRadius (place m ⟨x, y, span, .stacked m above main below⟩).rect ∧
      ∀ t ∈ slots m ⟨x, y, span, .stacked m above main below⟩,
        c.Skirts m.arcRadius t.region := by
  have hr := hm.arcRadius
  have hsizes := fun item hitem => ((hbuilt item hitem).nonneg hm).2
  have hbox := (Box.Built.stacked hbuilt).nonneg hm
  have hmem := Box.mem_of_mem_tiers_stacked htier
  have hitem := (hbuilt tier.2 hmem).nonneg hm
  have hup := Box.up_le_of_mem_tiers_stacked hm.separation hsizes htier
  have hdown := Box.le_down_of_mem_tiers_stacked hm.separation hsizes htier
  have hwidth := Box.width_le_of_mem_stacked (m := m) hmem
  -- one connector leads to the item and one away from it, both beside all of the items
  obtain ⟨there, back, htracks, hthere, hback⟩ := Box.joins_itemTracks hr
    (Box.offset_of_mem_tiers_stacked hm.separation hsizes htier)
    (x + Box.leftGap m span (Box.stacked m above main below).width) y
    ((Box.stacked m above main below).width - 4 * m.arcRadius) tier.2.branchRole
  rw [htracks] at hc
  rw [rect_place, left_eq rfl, slots_stacked, stack, List.forall_mem_map]
  simp only [List.mem_cons, List.not_mem_nil, or_false] at hc
  rcases hc with rfl | rfl
  · -- on the left of the items
    refine ⟨hthere.staysIn ?_ ?_, fun t _ => hthere.skirts (Or.inl ?_)⟩
    · simp only [Rect.mem_iff]
      omega
    · simp only [Rect.mem_iff]
      omega
    · simp only [Rect.spanning, region]
      omega
  · -- on the right of them
    refine ⟨hback.staysIn ?_ ?_, fun t _ => hback.skirts (Or.inr (Or.inl ?_))⟩
    · simp only [Rect.mem_iff]
      omega
    · simp only [Rect.mem_iff]
      omega
    · simp only [Rect.spanning, region]
      omega

/-- The tracks of a loop are inside of it, and around its item. -/
theorem loopTracks_spec (hm : m.Nonneg) {x y span : Int} {item : Box α}
    (hbuilt : item.Built m) {c : Connector}
    (hc : c ∈ Box.loopTracks m (x + Box.leftGap m span (Box.repeated m item).width) y
      (Box.repeated m item).width (Box.repeated m item).down) :
    c.StaysIn m.arcRadius (place m ⟨x, y, span, .repeated m item⟩).rect ∧
      ∀ t ∈ slots m ⟨x, y, span, .repeated m item⟩, c.Skirts m.arcRadius t.region := by
  have hr := hm.arcRadius
  have hsep := hm.separation
  have hitem := hbuilt.nonneg hm
  have hup : (Box.repeated m item).up = item.up := rfl
  have hwidth : (Box.repeated m item).width = item.width + 2 * m.arcRadius := rfl
  have hdown : (Box.repeated m item).down =
      max (2 * m.arcRadius) (item.down + m.separation) := rfl
  obtain ⟨there, back, around, htracks, hthere, hback, -, -, hstays, hskirts⟩ :=
    Box.loopTracks_spec hr (x + Box.leftGap m span (Box.repeated m item).width) y
      (Box.repeated m item).width (Box.repeated m item).down (by omega) (by omega)
  rw [htracks] at hc
  rw [rect_place, left_eq rfl, slots_repeated, List.forall_mem_singleton]
  simp only [List.mem_cons, List.not_mem_nil, or_false] at hc
  rcases hc with rfl | rfl | rfl
  · refine ⟨hthere.staysIn ?_ ?_, hthere.skirts (Or.inl ?_)⟩
    · simp only [Rect.mem_iff]
      omega
    · simp only [Rect.mem_iff]
      omega
    · simp only [Rect.spanning, region]
      omega
  · refine ⟨hback.staysIn ?_ ?_, hback.skirts (Or.inr (Or.inl ?_))⟩
    · simp only [Rect.mem_iff]
      omega
    · simp only [Rect.mem_iff]
      omega
    · simp only [Rect.spanning, region]
      omega
  · -- the track back is below the item, by the separation or more
    refine ⟨hstays.mono ?_, (hskirts item.up item.down (by omega)).mono ?_⟩
    · simp only [Rect.subset_iff]
      omega
    · simp only [Rect.subset_iff, region]
      omega

/-- The tracks of a box stay in its slot, and out of the slots of its children. -/
theorem tracks_spec (hm : m.Nonneg) {s : Slot α} (h : s.Valid m) {c : Connector}
    (hc : c ∈ s.tracks m) :
    c.StaysIn m.arcRadius s.region ∧ ∀ t ∈ s.slots m, c.Skirts m.arcRadius t.region := by
  have hslots := fun t ht => region_subset_rect_place hm h (t := t) ht
  have hrect := rect_place_subset_region (m := m) h.fits
  -- what fills the gaps is beside the box, and the slots are inside of it
  have hgap (hbare : s.item.isBareTrack = false) {role : Role}
      (hc : c ∈ Box.gapTracks m role s.x s.y s.span s.item.width) :
      c.StaysIn m.arcRadius s.region ∧ ∀ t ∈ s.slots m, c.Skirts m.arcRadius t.region := by
    have hspec := gapTracks_spec hm h hbare hc
    exact ⟨hspec.1, fun t ht => hspec.2.mono (hslots t ht)⟩
  cases h with
  | label x y span kind text textWidth => exact hgap rfl hc
  | line x y span role items hbuilt hfits =>
    cases items with
    | nil =>
      -- a bare track runs along the whole slot, and there is nothing to keep out of
      rw [tracks_ofItems_nil] at hc
      split_ifs at hc with hzero
      · exact absurd hc List.not_mem_nil
      · obtain rfl := List.mem_singleton.mp hc
        have hspan : 0 ≤ span := hfits
        have hjoins := Connector.joins_right hspan m.arcRadius x y role
        refine ⟨hjoins.staysIn ?_ ?_, fun t ht => absurd ht List.not_mem_nil⟩
        · simp only [region, Rect.mem_iff]
          exact ⟨le_rfl, by omega, (sub_zero y).le, (add_zero y).ge⟩
        · simp only [region, Rect.mem_iff]
          exact ⟨by omega, le_rfl, (sub_zero y).le, (add_zero y).ge⟩
    | cons first rest =>
      rw [tracks_ofItems_cons] at hc
      rcases List.mem_append.mp hc with hc | hc
      · exact hgap rfl hc
      · have hspec := joinTracks_spec hm hbuilt hc
        exact ⟨hspec.1.mono hrect, hspec.2⟩
  | stacked x y span above main below hbuilt hfits =>
    rw [tracks_stacked] at hc
    rcases List.mem_append.mp hc with hc | hc
    · exact hgap rfl hc
    · obtain ⟨tier, htier, hc⟩ := List.mem_flatMap.mp hc
      have hspec := itemTracks_spec hm hbuilt htier hc
      exact ⟨hspec.1.mono hrect, hspec.2⟩
  | repeated x y span item hbuilt hfits =>
    rw [tracks_repeated] at hc
    rcases List.mem_append.mp hc with hc | hc
    · exact hgap rfl hc
    · have hspec := loopTracks_spec hm hbuilt hc
      exact ⟨hspec.1.mono hrect, hspec.2⟩

end Slot

end SyntaxDiagram
