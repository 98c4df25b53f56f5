import SyntaxDiagram.Layout
import SyntaxDiagram.Proofs.Box.Stack
import SyntaxDiagram.Proofs.Element.Induction
import SyntaxDiagram.Proofs.Measure
import Mathlib.Algebra.BigOperators.Group.List.Basic
import Mathlib.Algebra.Order.BigOperators.Group.List
import Mathlib.Tactic.Ring

/-!
# Boxes made by the builders

`Box.Built m` is the least set of boxes that the builders give with the metrics `m`.  Layout stays
inside it (`built_of_alternativesBox`), and with metrics that are nowhere negative all of its boxes
have sizes that are not negative (`Built.nonneg_of_sized`, `Built.nonneg`).
-/

namespace SyntaxDiagram

/-! ### Metrics -/

/-- No dimension is negative. -/
structure Metrics.Nonneg (m : Metrics) : Prop where
  separation : 0 ≤ m.separation
  arcRadius : 0 ≤ m.arcRadius
  labelPadding : 0 ≤ m.labelPadding
  labelHalfHeight : 0 ≤ m.labelHalfHeight
  itemGap : 0 ≤ m.itemGap
  terminusWidth : 0 ≤ m.terminusWidth

/-- No dimension is negative that the sizes of boxes depend on. -/
structure Metrics.Sized (m : Metrics) : Prop where
  separation : 0 ≤ m.separation
  arcRadius : 0 ≤ m.arcRadius
  labelPadding : 0 ≤ m.labelPadding
  labelHalfHeight : 0 ≤ m.labelHalfHeight
  itemGap : 0 ≤ m.itemGap

theorem Metrics.Nonneg.sized {m : Metrics} (hm : m.Nonneg) : m.Sized where
  separation := hm.separation
  arcRadius := hm.arcRadius
  labelPadding := hm.labelPadding
  labelHalfHeight := hm.labelHalfHeight
  itemGap := hm.itemGap

/-- No dimension is negative, and whatever keeps two things apart is positive. -/
structure Metrics.Spaced (m : Metrics) : Prop extends m.Nonneg where
  separation_pos : 0 < m.separation
  arcRadius_pos : 0 < m.arcRadius
  itemGap_pos : 0 < m.itemGap

theorem Metrics.spaced_standard : Metrics.standard.Spaced where
  separation := by decide
  arcRadius := by decide
  labelPadding := by decide
  labelHalfHeight := by decide
  itemGap := by decide
  terminusWidth := by decide
  separation_pos := by decide
  arcRadius_pos := by decide
  itemGap_pos := by decide

/-! ### Measured widths -/

theorem Binary64.pos_of_ceil? {x : Binary64} {n : Int} (h : x.ceil? = some n)
    (hx : x.isNonpositive = false) : 0 < n := by
  cases x with
  | nan => simp [ceil?] at h
  | infinity negative => simp [ceil?] at h
  | finite negative significand exponent =>
    simp only [isNonpositive, Bool.or_eq_false_iff, beq_eq_false_iff_ne] at hx
    obtain ⟨rfl, hsig⟩ := hx
    -- the exponent only scales the fraction
    obtain ⟨hnum, hden⟩ : 0 < (scaleRatio 2 exponent significand 1).1 ∧
        0 < (scaleRatio 2 exponent significand 1).2 := by
      unfold scaleRatio
      split_ifs <;> simp [Nat.pos_of_ne_zero hsig]
    simp only [ceil?, Bool.false_eq_true, if_false, Option.some.injEq] at h
    rw [← h]
    exact_mod_cast Nat.div_pos (by omega) hden

/-- A number that is positive stays so when rounded up. -/
theorem Number.pos_of_ceil? {x : Number} {n : Int} (h : x.ceil? = some n)
    (hx : x.isNonpositive = false) : 0 < n := by
  cases x with
  | int k =>
    simp only [ceil?, Option.some.injEq, isNonpositive, decide_eq_false_iff_not] at h hx
    omega
  | real x => exact Binary64.pos_of_ceil? h hx

/-- A label that is laid out is at least one unit wide. -/
theorem Measure.pos_of_labelWidth {measure : Measure} {label : String} {units : Int}
    (h : labelWidth measure label = .ok units) : 0 < units := by
  obtain ⟨width, -, hwidth, hceil⟩ := labelWidth_eq_ok_iff.mp h
  exact Number.pos_of_ceil? hceil hwidth.2

namespace Box

variable {α : Type} [Inhabited α] {m : Metrics}

/-! ### Built boxes -/

/-- The boxes that the builders give. -/
inductive Built (m : Metrics) : Box α → Prop
  | label (kind : LabelKind) (text : String) {textWidth : Int} (pos : 0 < textWidth) :
    Built m (ofLabel m kind text textWidth)
  | line (role : Role) {items : List (Box α)} (built : ∀ item ∈ items, Built m item) :
    Built m (ofItems m role items)
  | stacked {above : List (Box α)} {main : Box α} {below : List (Box α)}
    (built : ∀ item ∈ above ++ main :: below, Built m item) :
    Built m (stacked m above main below)
  | repeated {item : Box α} (built : Built m item) : Built m (repeated m item)

theorem children_ofItems (role : Role) (items : List (Box α)) :
    (ofItems m role items).children = items := by
  cases items <;> rfl

/-- Builders are only ever given built items, so every child of a built box is built. -/
theorem Built.of_mem_children {box child : Box α} (h : box.Built m)
    (hchild : child ∈ box.children) : child.Built m := by
  cases h with
  | label kind text pos => exact absurd hchild List.not_mem_nil
  | line role built =>
    rw [children_ofItems] at hchild
    exact built child hchild
  | stacked built => exact built child hchild
  | repeated built => exact List.mem_singleton.mp hchild ▸ built

/-- A label that has a width is built. -/
theorem built_of_measured {measure : Measure} {kind : LabelKind} {text : String} {box : Box α}
    (h : measured m measure kind text = .ok box) : Built m box := by
  rw [measured, bind_eq_ok_iff] at h
  obtain ⟨textWidth, hwidth, h⟩ := h
  rw [pure_eq_ok_iff] at h
  subst h
  exact .label kind text (Measure.pos_of_labelWidth hwidth)

/-- A choice between built items is built, also where it comes down to one of them. -/
theorem built_of_ofBranches {mainIndex : Int} {items : List (Box α)} {box : Box α}
    (hitems : ∀ item ∈ items, Built m item) (h : ofBranches m mainIndex items = .ok box) :
    Built m box := by
  unfold ofBranches at h
  split_ifs at h with hneg
  split at h
  · exact absurd h (by simp)
  · rename_i main below hdrop
    obtain rfl := Except.ok.inj h
    -- the branch has the given items: those before the main one, and the rest
    refine .stacked fun item hitem => hitems item ?_
    rwa [← List.take_append_drop mainIndex.toNat items, hdrop]

end Box

/-! ### Layout -/

/-- The elements of a list are laid out from the left, up to the first fault. -/
theorem Element.toBoxes_eq_mapM (m : Metrics) (measure : Measure) (elements : List Element) :
    toBoxes m measure elements = elements.mapM (toBox m measure) := by
  induction elements with
  | nil => rfl
  | cons element rest ih => rw [toBoxes, List.mapM_cons, ih]

section inversion

variable {m : Metrics} {measure : Measure} {box : Box Unit}

theorem Element.line_eq_ok_iff {elements : List Element} :
    (do return Box.ofItems m .line (← toBoxes m measure elements)) = Except.ok box ↔
      ∃ boxes, elements.mapM (toBox m measure) = .ok boxes ∧ .ofItems m .line boxes = box := by
  rw [toBoxes_eq_mapM, bind_eq_ok_iff]
  simp only [pure_eq_ok_iff]

/-- A sequence is laid out iff all its items are, as a line of them. -/
theorem Element.toBox_sequence_eq_ok_iff {items : List Element} :
    (sequence items).toBox m measure = .ok box ↔
      ∃ boxes, items.mapM (toBox m measure) = .ok boxes ∧ .ofItems m .line boxes = box := by
  rw [toBox]
  exact line_eq_ok_iff

/-- An alternation is laid out iff all its branches are and they can be stacked. -/
theorem Element.toBox_alternation_eq_ok_iff {branches : List Element} :
    (alternation branches).toBox m measure = .ok box ↔
      ∃ boxes, branches.mapM (toBox m measure) = .ok boxes ∧
        Box.ofBranches m 0 boxes = .ok box := by
  rw [toBox, toBoxes_eq_mapM, bind_eq_ok_iff]

/-- A branch whose first item is the main one. -/
theorem Element.ofBranches_zero_eq_ok_iff {items : List (Box Unit)} :
    Box.ofBranches m 0 items = .ok box ↔
      ∃ main below, items = main :: below ∧ box = .stacked m [] main below := by
  cases items with
  | nil => simp [Box.ofBranches]
  | cons main below => simp [Box.ofBranches, eq_comm]

/-- A quantified element is laid out iff its item is and its quantifier can be drawn. -/
theorem Element.toBox_quantified_eq_ok_iff {item : Element} {quantifier : Quantifier} :
    (quantified item quantifier).toBox m measure = .ok box ↔
      ∃ inner, item.toBox m measure = .ok inner ∧ quantifiedBox m inner quantifier = .ok box := by
  rw [toBox, bind_eq_ok_iff]

end inversion

/-- What a quantifier makes of a built item is built. -/
theorem Element.built_quantifiedBox {m : Metrics} {item box : Box Unit} {quantifier : Quantifier}
    (hitem : item.Built m) (h : quantifiedBox m item quantifier = .ok box) : box.Built m := by
  have hbypass : (bypassTrack m).Built m := .line .bypass (by simp)
  cases quantifier with
  | optional =>
    obtain rfl := Except.ok.inj h
    exact .stacked (by simp [hbypass, hitem])
  | star =>
    obtain rfl := Except.ok.inj h
    exact .stacked (by simp [hbypass, hitem.repeated])
  | plus =>
    obtain rfl := Except.ok.inj h
    exact .repeated hitem
  | unknown mark => exact absurd h (by simp [quantifiedBox])

/-- Every box an element is laid out as is built, by induction over the element. -/
theorem Element.built_of_toBox {m : Metrics} {measure : Measure} {element : Element}
    {box : Box Unit} (h : element.toBox m measure = .ok box) : box.Built m := by
  induction element generalizing box with
  | literal text => exact Box.built_of_measured h
  | reference identifier kind => exact Box.built_of_measured h
  | sequence items ih =>
    obtain ⟨boxes, hboxes, rfl⟩ := toBox_sequence_eq_ok_iff.mp h
    -- each box of the line comes from one of the items
    refine .line .line fun item hitem => ?_
    obtain ⟨element, helement, hbox⟩ := exists_of_mem_of_mapM_eq_ok hboxes hitem
    exact ih element helement hbox
  | alternation branches ih =>
    obtain ⟨boxes, hboxes, h⟩ := toBox_alternation_eq_ok_iff.mp h
    refine Box.built_of_ofBranches (fun item hitem => ?_) h
    obtain ⟨element, helement, hbox⟩ := exists_of_mem_of_mapM_eq_ok hboxes hitem
    exact ih element helement hbox
  | quantified item quantifier ih =>
    obtain ⟨inner, hinner, h⟩ := toBox_quantified_eq_ok_iff.mp h
    exact built_quantifiedBox (ih hinner) h
  | foreign name => exact absurd h (by simp [toBox])

theorem Element.built_of_toBoxes {m : Metrics} {measure : Measure} {elements : List Element}
    {boxes : List (Box Unit)} (h : toBoxes m measure elements = .ok boxes) :
    ∀ box ∈ boxes, box.Built m := by
  rw [toBoxes_eq_mapM] at h
  intro box hbox
  obtain ⟨element, -, h⟩ := exists_of_mem_of_mapM_eq_ok h hbox
  exact built_of_toBox h

/-- Every box a production is laid out as is built. -/
theorem built_of_alternativesBox {m : Metrics} {measure : Measure}
    {alternatives : List (List Element)} {box : Box Unit}
    (h : alternativesBox m measure alternatives = .ok box) : box.Built m := by
  rw [alternativesBox, bind_eq_ok_iff] at h
  obtain ⟨lines, hlines, h⟩ := h
  have hbuilt : ∀ line ∈ lines, line.Built m := by
    intro line hline
    obtain ⟨alternative, -, h⟩ := exists_of_mem_of_mapM_eq_ok hlines hline
    rw [bind_eq_ok_iff] at h
    obtain ⟨items, hitems, h⟩ := h
    obtain rfl := pure_eq_ok_iff.mp h
    exact .line .line (Element.built_of_toBoxes hitems)
  -- nothing, a single line, or a branch of several
  match lines with
  | [] =>
    obtain rfl := pure_eq_ok_iff.mp h
    exact .line .line (by simp)
  | [line] =>
    obtain rfl := pure_eq_ok_iff.mp h
    exact hbuilt line (List.mem_cons_self ..)
  | first :: second :: rest =>
    obtain rfl := pure_eq_ok_iff.mp h
    exact .stacked hbuilt

namespace Box

variable {α : Type} [Inhabited α] {m : Metrics}

/-! ### Sizes -/

/-- A line rises at least as far above its track as each of its items. -/
theorem up_le_up_ofItems (role : Role) {items : List (Box α)} {item : Box α} (h : item ∈ items) :
    item.up ≤ (ofItems m role items).up := by
  cases items with
  | nil => exact absurd h List.not_mem_nil
  | cons first rest =>
    have hup : (ofItems m role (first :: rest)).up = greatest first.up (rest.map Box.up) := rfl
    rw [hup]
    rcases List.mem_cons.mp h with rfl | h
    · exact first_le_greatest _ _
    · exact le_greatest_of_mem (List.mem_map_of_mem h)

/-- A line reaches at least as far below its track as each of its items. -/
theorem down_le_down_ofItems (role : Role) {items : List (Box α)} {item : Box α}
    (h : item ∈ items) : item.down ≤ (ofItems m role items).down := by
  cases items with
  | nil => exact absurd h List.not_mem_nil
  | cons first rest =>
    have hdown : (ofItems m role (first :: rest)).down =
        greatest first.down (rest.map Box.down) := rfl
    rw [hdown]
    rcases List.mem_cons.mp h with rfl | h
    · exact first_le_greatest _ _
    · exact le_greatest_of_mem (List.mem_map_of_mem h)

theorem width_ofItems_cons (role : Role) (first : Box α) (rest : List (Box α)) :
    (ofItems m role (first :: rest)).width =
      first.width + (rest.map fun item => m.itemGap + item.width).sum := by
  have hwidth : (ofItems m role (first :: rest)).width =
      (first.width + (rest.map Box.width).sum) + m.itemGap * rest.length := rfl
  rw [hwidth, add_assoc]
  congr 1
  clear hwidth
  -- one gap for each item after the first
  induction rest with
  | nil => simp
  | cons item rest ih =>
    simp only [List.map_cons, List.sum_cons, ← ih, List.length_cons]
    push_cast
    ring

theorem width_ofItems_singleton (role : Role) (item : Box α) :
    (ofItems m role [item]).width = item.width := by
  rw [width_ofItems_cons, List.map_nil, List.sum_nil, add_zero]

/-- A line is its first item, one gap and the line of the others. -/
theorem width_ofItems_cons_cons (role : Role) (first second : Box α) (rest : List (Box α)) :
    (ofItems m role (first :: second :: rest)).width =
      first.width + m.itemGap + (ofItems m role (second :: rest)).width := by
  rw [width_ofItems_cons, width_ofItems_cons, List.map_cons, List.sum_cons]
  ring

/-- A line over items without negative widths has none itself. -/
theorem width_ofItems_nonneg (hgap : 0 ≤ m.itemGap) (role : Role) {items : List (Box α)}
    (h : ∀ item ∈ items, 0 ≤ item.width) : 0 ≤ (ofItems m role items).width := by
  cases items with
  | nil => exact le_rfl
  | cons first rest =>
    rw [width_ofItems_cons]
    refine add_nonneg (h first (List.mem_cons_self ..)) (List.sum_nonneg fun n hn => ?_)
    obtain ⟨item, hitem, rfl⟩ := List.mem_map.mp hn
    exact add_nonneg hgap (h item (List.mem_cons_of_mem _ hitem))

/-- The main item of a branch is on the track itself. -/
theorem main_mem_tiers_stacked {above below : List (Box α)} {main : Box α} :
    (0, main) ∈ (stacked m above main below).tiers := by
  rw [tiers_stacked]
  exact List.mem_append_right _ (List.mem_cons_self ..)

/-- A built box has no negative size, by induction over the builders. -/
theorem Built.nonneg_of_sized (hm : m.Sized) {box : Box α} (h : box.Built m) :
    0 ≤ box.width ∧ 0 ≤ box.up ∧ 0 ≤ box.down := by
  have hr := hm.arcRadius
  induction h with
  | label kind text pos =>
    have hpadding := hm.labelPadding
    exact ⟨by dsimp only [ofLabel, newFrame, width, frame]; omega, hm.labelHalfHeight,
      hm.labelHalfHeight⟩
  | @line role items built ih =>
    cases items with
    | nil => exact ⟨le_rfl, le_rfl, le_rfl⟩
    | cons first rest =>
      -- a line reaches as far up and down as its first item, or farther
      have hfirst := ih first (List.mem_cons_self ..)
      exact ⟨width_ofItems_nonneg hm.itemGap role fun item hitem => (ih item hitem).1,
        hfirst.2.1.trans (up_le_up_ofItems role (List.mem_cons_self ..)),
        hfirst.2.2.trans (down_le_down_ofItems role (List.mem_cons_self ..))⟩
  | @stacked above main below built ih =>
    -- the main item, which is not offset, is within the branch
    have hmain := ih main (by simp)
    have hsizes := fun item hitem => (ih item hitem).2
    have hwidth := width_le_of_mem_stacked (m := m) (show main ∈ above ++ main :: below by simp)
    have hup := up_le_of_mem_tiers_stacked hm.separation hsizes main_mem_tiers_stacked
    have hdown := le_down_of_mem_tiers_stacked hm.separation hsizes main_mem_tiers_stacked
    dsimp only at hup hdown
    omega
  | @repeated item built ih =>
    have hwidth : (Box.repeated m item).width = item.width + 2 * m.arcRadius := rfl
    have hdown : (Box.repeated m item).down =
        max (2 * m.arcRadius) (item.down + m.separation) := rfl
    refine ⟨?_, ih.2.1, ?_⟩
    · omega
    · omega

/-- With metrics that are not negative no built box has a negative size. -/
theorem Built.nonneg (hm : m.Nonneg) {box : Box α} (h : box.Built m) :
    0 ≤ box.width ∧ 0 ≤ box.up ∧ 0 ≤ box.down :=
  h.nonneg_of_sized hm.sized

end Box

end SyntaxDiagram
