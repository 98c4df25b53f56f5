import SyntaxDiagram.Proofs.Geometry.Containment

/-!
# Nothing overlaps in a drawing

The slots of the children of a box are apart, and what is drawn in a slot stays there; so two labels
of a placed tree are apart (`Slot.pairwise_apart_labels`), and no track of it runs into a label
(`Slot.skirts_label`).  For the points of the plane that comes to `Drawing.Clear`, which every
layout has with metrics that keep things apart (`Entry.clear_layout`).
-/

namespace SyntaxDiagram

/-- Whether a box shows a text. -/
def Box.isLabel {α : Type} : Box α → Bool
  | .label .. => true
  | _ => false

/-- The label boxes of a tree. -/
def Box.labels {α : Type} (box : Box α) : List (Box α) :=
  box.boxes.filter Box.isLabel

namespace Slot

section labels

variable {α : Type} {m : Metrics} {s : Slot α}

/-- A label has no slot inside it. -/
theorem slots_of_isLabel (h : s.item.isLabel) : s.slots m = [] := by
  obtain ⟨x, y, span, item⟩ := s
  cases item with
  | label => rfl
  | _ => exact absurd h (by simp [Box.isLabel])

/-- Placing a box neither makes it a label nor stops it being one. -/
theorem isLabel_place : (s.place m).isLabel = s.item.isLabel := by
  obtain ⟨x, y, span, item⟩ := s
  cases item <;> rfl

variable [Inhabited α]

/-- The labels of a placed tree: the tree itself if it is one, else those in the slots of its
children. -/
theorem labels_place (h : s.Valid m) :
    (s.place m).labels =
      if s.item.isLabel then [s.place m] else (s.slots m).flatMap fun t => (t.place m).labels := by
  rw [Box.labels, boxes_place h, List.filter_cons, isLabel_place, List.filter_flatMap]
  split_ifs with hlabel
  · rw [slots_of_isLabel hlabel]
    rfl
  · rfl

theorem rect_subset_of_mem_labels (hm : m.Nonneg) (h : s.Valid m) {b : Box Placement}
    (hb : b ∈ (s.place m).labels) : b.rect ⊆ s.region :=
  rect_subset_of_mem_boxes hm h (List.mem_filter.mp hb).1

/-- The tracks around a label end at its sides, so none enters it. -/
theorem skirts_rect_of_isLabel (hm : m.Nonneg) (h : s.Valid m) (hlabel : s.item.isLabel)
    {c : Connector} (hc : c ∈ s.tracks m) : c.Skirts m.arcRadius (s.place m).rect := by
  cases h with
  | label x y span kind text textWidth pos fits =>
    exact (gapTracks_spec hm ⟨.label kind text pos, fits⟩ rfl hc).2
  | line x y span role items =>
    cases items <;> exact absurd hlabel (by simp [Box.isLabel, Box.ofItems])
  | stacked => exact absurd hlabel (by simp [Box.isLabel, Box.stacked])
  | repeated => exact absurd hlabel (by simp [Box.isLabel, Box.repeated])

end labels

variable {α : Type} [Inhabited α] {m : Metrics} {s : Slot α}

/-- No two labels that are placed in a slot share a point. -/
theorem pairwise_apart_labels (hm : m.Spaced) (h : s.Valid m) :
    (s.place m).labels.Pairwise fun b c => b.rect.Apart c.rect := by
  induction h with
  | step s hs ih =>
    rw [labels_place hs]
    split_ifs with hlabel
    · exact List.pairwise_singleton ..
    · -- within one slot by induction, and across two because the slots are apart
      refine List.pairwise_flatMap.mpr ⟨ih, ?_⟩
      refine (pairwise_apart_slots hm hs).imp_of_mem fun ht hu htu b hb c hc => ?_
      exact htu.mono (rect_subset_of_mem_labels hm.toNonneg (valid_of_mem_slots hs ht) hb)
        (rect_subset_of_mem_labels hm.toNonneg (valid_of_mem_slots hs hu) hc)

instance : Std.Symm fun t u : Slot α => t.region.Apart u.region where
  symm _ _ := Rect.Apart.symm

/-- No track of a placed tree runs into a label of it. -/
theorem skirts_label (hm : m.Spaced) (h : s.Valid m) {c : Connector}
    (hc : c ∈ (s.place m).connectors) {b : Box Placement} (hb : b ∈ (s.place m).labels) :
    c.Skirts m.arcRadius b.rect := by
  induction h with
  | step s hs ih =>
    rw [connectors_place hs, List.mem_append, List.mem_flatMap] at hc
    rw [labels_place hs] at hb
    split_ifs at hb with hlabel
    · -- a label has no tracks but those in the gaps beside it
      obtain rfl := List.mem_singleton.mp hb
      rw [slots_of_isLabel hlabel] at hc
      rcases hc with hc | ⟨t, ht, -⟩
      · exact skirts_rect_of_isLabel hm.toNonneg hs hlabel hc
      · exact absurd ht List.not_mem_nil
    · obtain ⟨u, hu, hb⟩ := List.mem_flatMap.mp hb
      have hbu := rect_subset_of_mem_labels hm.toNonneg (valid_of_mem_slots hs hu) hb
      rcases hc with hc | ⟨t, ht, hc⟩
      · exact ((tracks_spec hm.toNonneg hs hc).2 u hu).mono hbu
      · by_cases htu : t = u
        · subst htu
          exact ih t ht hc hb
        · -- what is drawn in two slots is as far apart as the slots
          have hapart := (pairwise_apart_slots hm hs).forall ht hu htu
          have hct := staysIn_of_mem_connectors hm.toNonneg (valid_of_mem_slots hs ht) hc
          exact (hct.skirts hapart.skirts).mono hbu

end Slot

/-! ### Drawings -/

namespace Drawing

/-- The label boxes of a drawing. -/
def labels (d : Drawing) : List (Box Placement) :=
  d.diagram.root.labels

/-- No two labels of a drawing have a point in common, and no stroke has one with the inside of a
label. -/
structure Clear (m : Metrics) (d : Drawing) : Prop where
  labels_disjoint : d.labels.Pairwise fun b c => Disjoint b.rect.region c.rect.region
  strokes_disjoint : ∀ c ∈ d.connectors, ∀ stroke ∈ c.strokes m.arcRadius, ∀ b ∈ d.labels,
    Disjoint stroke.region (interior b.rect.region)

end Drawing

namespace Diagram

variable {α : Type} {m : Metrics} {entry : Entry} {root : Box α} {padding : Int}

/-- The connectors at the ends are beside the slot of the box. -/
theorem skirts_region_of_mem_termini (hm : m.Nonneg) {diagram : Diagram α} {c : Connector}
    (hc : c ∈ (diagram.draw m).termini) : c.Skirts m.arcRadius (diagram.slot m).region := by
  have htw := hm.terminusWidth
  obtain ⟨first, last, htermini, hfirst, hlast⟩ := joins_termini hm diagram
  rw [htermini] at hc
  simp only [List.mem_cons, List.not_mem_nil, or_false] at hc
  rcases hc with rfl | rfl
  · refine hfirst.skirts (Or.inl ?_)
    simp only [Rect.spanning, Slot.region, slot, draw]
    omega
  · refine hlast.skirts (Or.inr (Or.inl ?_))
    simp only [Rect.spanning, Slot.region, slot, draw]
    omega

/-- Clearness for the drawing of any built root, from the facts about its slot. -/
theorem clear_draw [Inhabited α] (hm : m.Spaced) (h : root.Built m) :
    ((ofBox m entry root padding).draw m).Clear m := by
  have hslot : ((ofBox m entry root padding).slot m).Valid m := ⟨h, le_rfl⟩
  refine ⟨(Slot.pairwise_apart_labels hm hslot).imp Rect.Apart.disjoint_region, ?_⟩
  intro c hc stroke hstroke b hb
  suffices hskirts : c.Skirts m.arcRadius b.rect from (hskirts stroke hstroke).disjoint_interior
  rcases List.mem_append.mp hc with hc | hc
  · exact (skirts_region_of_mem_termini hm.toNonneg hc).mono
      (Slot.rect_subset_of_mem_labels hm.toNonneg hslot hb)
  · exact Slot.skirts_label hm hslot hc hb

end Diagram

/-! ### Layouts -/

namespace Entry

variable {m : Metrics} {measure : Measure} {entry : Entry} {d : Drawing}

/-- With metrics that keep things apart, labels do not overlap in a layout, and no track runs into
one. -/
theorem clear_layout (hm : m.Spaced) (h : entry.layout m measure = .ok d) : d.Clear m := by
  obtain ⟨root, hroot, rfl⟩ := exists_box_of_layout h
  exact Diagram.clear_draw hm (built_of_alternativesBox hroot)

theorem clear_layout_sample :
    Metrics.standard.Spaced ∧
      ∃ d, sample.layout .standard (.const (some (.int 9))) = .ok d ∧ d.Clear .standard :=
  ⟨Metrics.spaced_standard, _, rfl,
    clear_layout Metrics.spaced_standard
      (show sample.layout .standard (.const (some (.int 9))) = .ok _ from rfl)⟩

end Entry

end SyntaxDiagram
