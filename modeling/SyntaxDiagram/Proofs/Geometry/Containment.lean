import SyntaxDiagram.Proofs.Geometry.Room

/-!
# Nothing is drawn outside of the drawing

Every box of a placed tree is a box in a slot inside of the one for the root
(`Slot.exists_slot_of_mem_boxes`), so what holds for the placing of one box bounds the whole tree.
For a drawing that comes to `Drawing.Contained`, which every layout has with metrics that are
nowhere negative (`Entry.contained_layout`).
-/

namespace SyntaxDiagram

/-! ### Placed trees -/

namespace Slot

variable {α : Type} [Inhabited α] {m : Metrics} {s : Slot α}

/-- The boxes of a placed tree were placed in slots inside of the one of the tree. -/
theorem exists_slot_of_mem_boxes (hm : m.Nonneg) (h : s.Valid m) {b : Box Placement}
    (hb : b ∈ (s.place m).boxes) :
    ∃ u : Slot α, u.Valid m ∧ u.region ⊆ s.region ∧ u.place m = b := by
  induction h with
  | step s hs ih =>
    rw [boxes_place hs, List.mem_cons, List.mem_flatMap] at hb
    rcases hb with rfl | ⟨t, ht, hb⟩
    · exact ⟨s, hs, Rect.Subset.refl _, rfl⟩
    · -- a slot inside of that of a child is inside of the one of the box
      obtain ⟨u, hu, hut, rfl⟩ := ih t ht hb
      have hts := Rect.Subset.trans (region_subset_rect_place hm hs ht)
        (rect_place_subset_region hs.fits)
      exact ⟨u, hu, Rect.Subset.trans hut hts, rfl⟩

/-- Every box placed in a slot lies within the region of the slot. -/
theorem rect_subset_of_mem_boxes (hm : m.Nonneg) (h : s.Valid m) {b : Box Placement}
    (hb : b ∈ (s.place m).boxes) : b.rect ⊆ s.region := by
  obtain ⟨u, hu, hus, rfl⟩ := exists_slot_of_mem_boxes hm h hb
  exact Rect.Subset.trans (rect_place_subset_region hu.fits) hus

/-- No box placed in a slot has a negative width or elevation. -/
theorem nonneg_of_mem_boxes (hm : m.Nonneg) (h : s.Valid m) {b : Box Placement}
    (hb : b ∈ (s.place m).boxes) : 0 ≤ b.width ∧ 0 ≤ b.up ∧ 0 ≤ b.down := by
  obtain ⟨u, hu, -, rfl⟩ := exists_slot_of_mem_boxes hm h hb
  rw [place, Box.width_place, Box.up_place, Box.down_place]
  exact hu.built.nonneg hm

/-- At any depth, a box is inside of the one that it belongs to. -/
theorem rect_subset_of_mem_children (hm : m.Nonneg) (h : s.Valid m) {b child : Box Placement}
    (hb : b ∈ (s.place m).boxes) (hchild : child ∈ b.children) : child.rect ⊆ b.rect := by
  obtain ⟨u, hu, -, rfl⟩ := exists_slot_of_mem_boxes hm h hb
  rw [children_place hu] at hchild
  obtain ⟨t, ht, rfl⟩ := List.mem_map.mp hchild
  exact Rect.Subset.trans (rect_place_subset_region (valid_of_mem_slots hu ht).fits)
    (region_subset_rect_place hm hu ht)

/-- No connector drawn in a slot leaves its region, at the bends neither. -/
theorem staysIn_of_mem_connectors (hm : m.Nonneg) (h : s.Valid m) {c : Connector}
    (hc : c ∈ (s.place m).connectors) : c.StaysIn m.arcRadius s.region := by
  obtain ⟨b, hb, hc⟩ := List.mem_flatMap.mp hc
  obtain ⟨u, hu, hus, rfl⟩ := exists_slot_of_mem_boxes hm h hb
  exact (tracks_spec hm hu hc).1.mono hus

end Slot

/-! ### Drawings -/

namespace Drawing

/-- All boxes of a drawing. -/
def boxes (d : Drawing) : List (Box Placement) :=
  d.diagram.root.boxes

/-- What the blank space around a drawing leaves of it. -/
def area (d : Drawing) : Rect :=
  ⟨d.diagram.padding, d.diagram.width - d.diagram.padding, d.diagram.padding,
    d.diagram.height - d.diagram.padding⟩

/-- The part of the area between the connectors at the start and at the end. -/
def core (m : Metrics) (d : Drawing) : Rect :=
  { d.area with
    left := d.area.left + m.terminusWidth
    right := d.area.right - m.terminusWidth }

/-- Taking off the padding only shrinks the area of a drawing. -/
theorem core_subset_area {m : Metrics} (hm : m.Nonneg) (d : Drawing) : d.core m ⊆ d.area := by
  have htw := hm.terminusWidth
  simp only [core, Rect.subset_iff]
  omega

/-- Nothing is drawn outside of the drawing, and every box is inside of the one that it belongs
to. -/
structure Contained (m : Metrics) (d : Drawing) : Prop where
  sizes_nonneg : ∀ box ∈ d.boxes, 0 ≤ box.width ∧ 0 ≤ box.up ∧ 0 ≤ box.down
  child_subset : ∀ box ∈ d.boxes, ∀ child ∈ box.children, child.rect ⊆ box.rect
  root_subset : d.diagram.root.rect ⊆ d.core m
  box_subset : ∀ box ∈ d.boxes, box.rect ⊆ d.area
  points_mem : ∀ c ∈ d.connectors, ∀ p ∈ c.points m.arcRadius, p ∈ d.area
  strokes_subset : ∀ c ∈ d.connectors, ∀ stroke ∈ c.strokes m.arcRadius, stroke ⊆ d.area
  termini_joins : ∃ first last, d.termini = [first, last] ∧
    first.Joins m.arcRadius d.start ((d.core m).left, d.start.2) ∧
    last.Joins m.arcRadius ((d.core m).right, d.finish.2) d.finish
  start_mem : d.start ∈ d.area
  start_left : d.start.1 = d.area.left
  finish_mem : d.finish ∈ d.area
  finish_right : d.finish.1 = d.area.right
  level : d.start.2 = d.finish.2

end Drawing

namespace Diagram

variable {α : Type}

/-- The slot for the box of a diagram. -/
def slot (m : Metrics) (diagram : Diagram α) : Slot α :=
  ⟨diagram.padding + m.terminusWidth, diagram.padding + diagram.up, diagram.root.width,
    diagram.root⟩

theorem root_draw (m : Metrics) (diagram : Diagram α) :
    (diagram.draw m).diagram.root = (diagram.slot m).place m := rfl

variable {m : Metrics} {entry : Entry} {root : Box α} {padding : Int}

/-- The region of the slot of the root lies within the padding. -/
theorem region_slot_subset_core :
    ((ofBox m entry root padding).slot m).region ⊆
      ((ofBox m entry root padding).draw m).core m := by
  simp only [Slot.region, slot, Drawing.core, Drawing.area, draw, withRoot, ofBox, Rect.subset_iff]
  omega

theorem right_core :
    (((ofBox m entry root padding).draw m).core m).right =
      padding + m.terminusWidth + root.width := by
  simp only [Drawing.core, Drawing.area, draw, withRoot, ofBox]
  ring

/-- The connectors at the ends lead from the start to the box and from the box to the end. -/
theorem joins_termini (hm : m.Nonneg) (diagram : Diagram α) :
    ∃ first last, (diagram.draw m).termini = [first, last] ∧
      first.Joins m.arcRadius (diagram.draw m).start ((diagram.slot m).x, (diagram.slot m).y) ∧
      last.Joins m.arcRadius
        ((diagram.slot m).x + (diagram.slot m).span, (diagram.slot m).y) (diagram.draw m).finish :=
  ⟨_, _, rfl, Connector.joins_right hm.terminusWidth ..,
    Connector.joins_right hm.terminusWidth ..⟩

variable [Inhabited α]

/-- Containment for the drawing of any built root, from the facts about its slot. -/
theorem contained_draw (hm : m.Nonneg) (h : root.Built m) :
    ((ofBox m entry root padding).draw m).Contained m := by
  set d := (ofBox m entry root padding).draw m with hd
  have hslot : ((ofBox m entry root padding).slot m).Valid m := ⟨h, le_rfl⟩
  have hcore : ((ofBox m entry root padding).slot m).region ⊆ d.core m := region_slot_subset_core
  have harea : d.core m ⊆ d.area := Drawing.core_subset_area hm d
  have hsize := h.nonneg hm
  have htw := hm.terminusWidth
  have hstart : d.start ∈ d.area := by
    simp only [hd, Drawing.area, draw, withRoot, ofBox, Rect.mem_iff]
    omega
  have hfinish : d.finish ∈ d.area := by
    simp only [hd, Drawing.area, draw, withRoot, ofBox, Rect.mem_iff]
    omega
  obtain ⟨first, last, htermini, hfirst, hlast⟩ := joins_termini hm (ofBox m entry root padding)
  -- all connectors, those at the ends and those of the boxes
  have hstays : ∀ c ∈ d.connectors, c.StaysIn m.arcRadius d.area := by
    intro c hc
    rcases List.mem_append.mp hc with hc | hc
    · rw [htermini] at hc
      simp only [List.mem_cons, List.not_mem_nil, or_false] at hc
      rcases hc with rfl | rfl
      · refine hfirst.staysIn hstart ?_
        simp only [hd, slot, Drawing.area, draw, withRoot, ofBox, Rect.mem_iff]
        omega
      · refine hlast.staysIn ?_ hfinish
        simp only [hd, slot, Drawing.area, draw, withRoot, ofBox, Rect.mem_iff]
        omega
    · exact (Slot.staysIn_of_mem_connectors hm hslot hc).mono (Rect.Subset.trans hcore harea)
  -- the slot of the root is the core of the drawing, and inside of the area with it
  exact
    { sizes_nonneg := fun box hbox => Slot.nonneg_of_mem_boxes hm hslot hbox
      child_subset := fun box hbox child hchild =>
        Slot.rect_subset_of_mem_children hm hslot hbox hchild
      root_subset := Rect.Subset.trans (Slot.rect_place_subset_region hslot.fits) hcore
      box_subset := fun box hbox =>
        Rect.Subset.trans (Slot.rect_subset_of_mem_boxes hm hslot hbox)
          (Rect.Subset.trans hcore harea)
      points_mem := hstays
      strokes_subset := fun c hc => (hstays c hc).strokes_subset
      termini_joins := ⟨first, last, htermini, hfirst, by rwa [hd, right_core]⟩
      start_mem := hstart
      start_left := rfl
      finish_mem := hfinish
      finish_right := by
        simp only [hd, Drawing.area, draw, withRoot, ofBox]
        ring
      level := rfl }

end Diagram

/-! ### Layouts -/

namespace Entry

variable {m : Metrics} {measure : Measure} {entry : Entry} {d : Drawing}

/-- A layout is the drawing of the box of the alternatives. -/
theorem exists_box_of_layout (h : entry.layout m measure = .ok d) :
    ∃ root, alternativesBox m measure entry.alternatives = .ok root ∧
      d = (Diagram.ofBox m entry root Diagram.standardPadding).draw m := by
  rw [layout, bind_eq_ok_iff] at h
  obtain ⟨root, hroot, h⟩ := h
  rw [mapError_eq_ok_iff] at hroot
  exact ⟨root, hroot, (pure_eq_ok_iff.mp h).symm⟩

/-- With metrics that are nowhere negative, a layout draws nothing outside of its drawing. -/
theorem contained_layout (hm : m.Nonneg) (h : entry.layout m measure = .ok d) : d.Contained m := by
  obtain ⟨root, hroot, rfl⟩ := exists_box_of_layout h
  exact Diagram.contained_draw hm (built_of_alternativesBox hroot)

/-- A rule for items up to a full stop, or for nothing at all. -/
def sample : Entry :=
  ⟨.rule, "list", "", [[.quantified (.reference "item" none) .star, .literal "."], []]⟩

theorem contained_layout_sample :
    Metrics.standard.Nonneg ∧
      ∃ d, sample.layout .standard (.const (some (.int 9))) = .ok d ∧ d.Contained .standard :=
  ⟨Metrics.spaced_standard.toNonneg, _, rfl,
    contained_layout Metrics.spaced_standard.toNonneg
      (show sample.layout .standard (.const (some (.int 9))) = .ok _ from rfl)⟩

end Entry

end SyntaxDiagram
