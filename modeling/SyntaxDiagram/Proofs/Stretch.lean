import SyntaxDiagram.Proofs.Box.Elevation
import SyntaxDiagram.Proofs.Box.Placing
import SyntaxDiagram.Proofs.Geometry.Containment
import SyntaxDiagram.Proofs.Measure
import SyntaxDiagram.Proofs.Number.Value

/-!
# Wider labels stretch a drawing sideways

Two measures give an entry drawings of the same elevation (`Drawing.Level`), since the uprights of
the boxes are the same.  Box by box, the drawing is no wider under the measure that gives no label
a greater width (`Drawing.NoWider`): the builders are monotone in the widths of their items
(`Box.congruence_noWider`), and rounding up to whole units is monotone as well
(`Measure.AtMost.relates`).  Both are put together in `Entry.stretched_layout`.
-/

namespace SyntaxDiagram

/-! ### Widths of labels -/

namespace Measure

/-- A measure gives a label a width that is not greater than the one another measure gives it. -/
def AtMost (measure measure' : Measure) (label : String) : Prop :=
  ∃ width width', measure label = .ok (some width) ∧ measure' label = .ok (some width') ∧
    width.AtMost width'

/-- A width that is not greater takes no more units. -/
theorem AtMost.relates {measure measure' : Measure} {label : String}
    (h : measure.AtMost measure' label) : measure.Relates (· ≤ ·) measure' label := by
  intro units units' hunits hunits'
  obtain ⟨_, _, hanswer, hanswer', hwidths⟩ := h
  obtain ⟨width, answer, -, hceil⟩ := labelWidth_eq_ok_iff.mp hunits
  obtain ⟨width', answer', -, hceil'⟩ := labelWidth_eq_ok_iff.mp hunits'
  obtain rfl := Option.some.inj (Except.ok.inj (answer.symm.trans hanswer))
  obtain rfl := Option.some.inj (Except.ok.inj (answer'.symm.trans hanswer'))
  exact hwidths.ceil_le hceil hceil'

end Measure

namespace Box

/-! ### Widths of boxes -/

/-- Box by box, a tree is no wider than another one of the same shape. -/
def NoWider {α : Type} (box box' : Box α) : Prop :=
  List.Forall₂ (fun b b' => b.width ≤ b'.width) box.boxes box'.boxes

section

variable {α : Type} {box box' : Box α}

theorem NoWider.width_le (h : box.NoWider box') : box.width ≤ box'.width := by
  rw [NoWider, boxes_eq_cons, boxes_eq_cons, List.forall₂_cons] at h
  exact h.1

/-- A tree is no wider if its root is not and none of its children is. -/
theorem NoWider.of_children (hwidth : box.width ≤ box'.width)
    (h : List.Forall₂ NoWider box.children box'.children) : box.NoWider box' := by
  rw [NoWider, boxes_eq_cons, boxes_eq_cons]
  exact .cons hwidth (List.rel_flatMap h fun _ _ h => h)

theorem forall₂_width_le {items items' : List (Box α)} (h : List.Forall₂ NoWider items items') :
    List.Forall₂ (· ≤ ·) (items.map width) (items'.map width) := by
  rw [List.forall₂_map_left_iff, List.forall₂_map_right_iff]
  exact h.imp fun {_ _} h => h.width_le

end

/-- The greatest of some numbers grows with each of them. -/
theorem greatest_le_greatest {first first' : Int} {rest rest' : List Int} (hfirst : first ≤ first')
    (hrest : List.Forall₂ (· ≤ ·) rest rest') : greatest first rest ≤ greatest first' rest' := by
  induction hrest generalizing first first' with
  | nil => exact hfirst
  | cons hn _ ih => exact ih (max_le_max hfirst hn)

/-- A line over items that are no wider is no wider. -/
theorem width_ofItems_le {m : Metrics} {items items' : List (Box Unit)}
    (h : List.Forall₂ NoWider items items') (role : Role) :
    (ofItems m role items).width ≤ (ofItems m role items').width := by
  cases h with
  | nil => exact le_rfl
  | @cons first first' rest rest' hfirst hrest =>
    rw [width_ofItems_cons, width_ofItems_cons]
    refine add_le_add hfirst.width_le (List.Forall₂.sum_le_sum ?_)
    rw [List.forall₂_map_left_iff, List.forall₂_map_right_iff]
    exact hrest.imp fun {_ _} h => add_le_add le_rfl h.width_le

/-- The builders make no wider boxes of items that are no wider. -/
theorem congruence_noWider (m : Metrics) : Congruence m (· ≤ ·) NoWider where
  label kind text width width' h := by
    have hwidth : width + m.labelPadding ≤ width' + m.labelPadding := by omega
    exact .of_children hwidth .nil
  line role items items' h := by
    refine .of_children (width_ofItems_le h role) ?_
    rwa [children_ofItems, children_ofItems]
  stacked above above' main main' below below' habove hmain hbelow := by
    refine .of_children ?_ (List.rel_append habove (.cons hmain hbelow))
    have hothers : List.Forall₂ NoWider (above ++ below) (above' ++ below') :=
      List.rel_append habove hbelow
    have hgreatest := greatest_le_greatest hmain.width_le (forall₂_width_le hothers)
    show 4 * m.arcRadius + greatest main.width ((above ++ below).map width) ≤
      4 * m.arcRadius + greatest main'.width ((above' ++ below').map width)
    omega
  repeated item item' h := by
    refine .of_children ?_ (.cons h .nil)
    have hwidth := h.width_le
    show item.width + 2 * m.arcRadius ≤ item'.width + 2 * m.arcRadius
    omega

/-- Trees that are no wider stay so wherever they are placed. -/
theorem NoWider.place {m m' : Metrics} {box box' : Box Unit} (h : box.NoWider box')
    (x x' y y' span span' : Int) :
    (box.place m x y span).NoWider (box'.place m' x' y' span') := by
  have hwidths {α : Type} (b b' : Box α) :
      b.NoWider b' ↔ List.Forall₂ (· ≤ ·) (b.boxes.map width) (b'.boxes.map width) := by
    rw [NoWider, List.forall₂_map_left_iff, List.forall₂_map_right_iff]
  have hkept (m : Metrics) (box : Box Unit) (x y span : Int) :
      (box.place m x y span).width = box.width :=
    width_place m x y span box
  rw [hwidths] at h ⊢
  rwa [map_boxes_place (hkept m), map_boxes_place (hkept m')]

end Box

/-! ### Drawings -/

namespace Drawing

/-- Two drawings have boxes of the same shape and kinds at the same heights, which reach as far up
and down; they are of the same height, and start and end at the same heights. -/
structure Level (d d' : Drawing) : Prop where
  elevation_eq : d.diagram.root.elevation = d'.diagram.root.elevation
  up_eq : d.diagram.up = d'.diagram.up
  down_eq : d.diagram.down = d'.diagram.down
  height_eq : d.diagram.height = d'.diagram.height
  start_eq : d.start.2 = d'.start.2
  finish_eq : d.finish.2 = d'.finish.2

/-- A drawing and all of its boxes are no wider than another one and its boxes. -/
structure NoWider (d d' : Drawing) : Prop where
  boxes : List.Forall₂ (fun box box' => box.width ≤ box'.width) d.boxes d'.boxes
  width_le : d.diagram.width ≤ d'.diagram.width

end Drawing

namespace Diagram

variable {m : Metrics} {entry : Entry} {root root' : Box Unit} {padding : Int}

/-- Roots of the same upright are drawn at the same level. -/
theorem level_draw (alignment : Alignment) (h : root.upright = root'.upright) :
    ((ofBox m entry root padding).draw m).Level
      ((ofBox { m with alignment } entry root' padding).draw { m with alignment }) := by
  have hheights := Box.sameHeights_of_upright_eq h
  have hup := hheights.up_eq
  have hdown := hheights.down_eq
  refine ⟨?_, ?_, ?_, ?_, ?_, ?_⟩
  · show (root.place m _ (padding + max root.up _) _).elevation =
      (root'.place { m with alignment } _ (padding + max root'.up _) _).elevation
    rw [hup]
    exact Box.elevation_place_eq h ..
  · simp only [draw, withRoot, ofBox, hup]
  · simp only [draw, withRoot, ofBox, hdown]
  · simp only [draw, withRoot, ofBox, hup, hdown]
  · simp only [draw, ofBox, hup]
  · simp only [draw, ofBox, hup]

/-- Roots that are no wider are drawn no wider. -/
theorem noWider_draw (alignment : Alignment) (h : root.NoWider root') :
    ((ofBox m entry root padding).draw m).NoWider
      ((ofBox { m with alignment } entry root' padding).draw { m with alignment }) where
  boxes := h.place ..
  width_le := by
    have hwidth := h.width_le
    show root.width + m.terminusWidth * 2 + padding * 2 ≤
      root'.width + m.terminusWidth * 2 + padding * 2
    omega

end Diagram

namespace Entry

variable {m : Metrics} {measure measure' : Measure} {entry : Entry} {d d' : Drawing}

/-- Another measure, and other places for boxes in wider spaces, stretch a drawing sideways and
leave all heights as they are; where no label has a greater width, no box is wider. -/
theorem stretched_layout (alignment : Alignment) (h : entry.layout m measure = .ok d)
    (h' : entry.layout { m with alignment } measure' = .ok d') :
    d.Level d' ∧
      ((∀ caption ∈ entry.captions, measure.AtMost measure' caption.2) → d.NoWider d') := by
  obtain ⟨root, hroot, rfl⟩ := exists_box_of_layout h
  obtain ⟨root', hroot', rfl⟩ := exists_box_of_layout h'
  rw [alternativesBox_alignment] at hroot'
  constructor
  · have hupright : root.upright = root'.upright :=
      (Box.congruence_upright m).of_alternativesBox
        (fun _ _ _ _ _ _ _ _ _ _ => trivial) hroot hroot'
    exact Diagram.level_draw alignment hupright
  · intro hmost
    rw [captions_eq_flatMap] at hmost
    simp only [List.forall_mem_flatMap] at hmost
    have hnoWider : root.NoWider root' :=
      (Box.congruence_noWider m).of_alternativesBox (fun alternative halternative element helement
        caption hcaption =>
          (hmost alternative halternative element helement caption hcaption).relates) hroot hroot'
    exact Diagram.noWider_draw alignment hnoWider

/-- The list of items with all labels of one width, and with labels as wide as they are long. -/
theorem stretched_layout_sample :
    ∃ d, sample.layout .standard (.const (some (.int 9))) = .ok d ∧
      ∃ d', sample.layout { Metrics.standard with alignment := .left }
        (.perCharacter (.int 9)) = .ok d' ∧
      (∀ caption ∈ sample.captions,
        (Measure.const (some (.int 9))).AtMost (.perCharacter (.int 9)) caption.2) ∧
      d.Level d' ∧ d.NoWider d' := by
  have h : sample.layout .standard (.const (some (.int 9))) = .ok _ := rfl
  have h' : sample.layout { Metrics.standard with alignment := .left } (.perCharacter (.int 9)) =
    .ok _ := rfl
  have hmost : ∀ caption ∈ sample.captions,
      (Measure.const (some (.int 9))).AtMost (.perCharacter (.int 9)) caption.2 := by
    have hcaptions : sample.captions = [(.rule none, "item"), (.terminal, ".")] := rfl
    rw [hcaptions, List.forall_mem_cons, List.forall_mem_singleton]
    constructor
    · exact ⟨.int 9, .int 36, rfl, rfl, 9, 36, rfl, rfl, by norm_num⟩
    · exact ⟨.int 9, .int 9, rfl, rfl, 9, 9, rfl, rfl, le_rfl⟩
  obtain ⟨hlevel, hnoWider⟩ := stretched_layout .left h h'
  exact ⟨_, h, _, h', hmost, hlevel, hnoWider hmost⟩

end Entry

end SyntaxDiagram
