import SyntaxDiagram.Proofs.Element.Normal
import SyntaxDiagram.Proofs.Regroup

/-!
# Tallies

Something that is counted in boxes is tallied when the builders add fixed numbers to the counts of
their items: one number for each branch, one for each loop and one for each track past an item
(`Box.Tally`).  What an element comes to is then read off its alternations and quantifiers
(`Box.Tally.of_toBox`), and what some alternatives come to as well
(`Box.Tally.of_alternativesBox`).
-/

namespace SyntaxDiagram

/-! ### Elements -/

namespace Element

/-- An element that can be left out. -/
def isSkippable : Element → Bool
  | .quantified _ .optional | .quantified _ .star => true
  | _ => false

/-- An element that can be repeated. -/
def isRepeatable : Element → Bool
  | .quantified _ .plus | .quantified _ .star => true
  | _ => false

/-- An element with branches. -/
def isAlternation : Element → Bool
  | .alternation _ => true
  | _ => false

/-- What an element itself adds to a count, given what a branch, a loop and a track past an item
add. -/
def weight (branch loop bypass : Nat) (element : Element) : Nat :=
  (if element.isAlternation then branch else 0) +
    (if element.isSkippable then branch + bypass else 0) +
    if element.isRepeatable then loop else 0

/-- What an element adds to a count with all that is in it. -/
def tally (branch loop bypass : Nat) (element : Element) : Nat :=
  (element.walk.map (weight branch loop bypass)).sum

section tally

variable {branch loop bypass : Nat}

theorem sum_map_walkList (elements : List Element) :
    ((walkList elements).map (weight branch loop bypass)).sum =
      (elements.map (tally branch loop bypass)).sum := by
  induction elements with
  | nil => rfl
  | cons element rest ih =>
    rw [walkList, List.map_append, List.sum_append, ih, List.map_cons, List.sum_cons, tally]

theorem tally_eq_add (element : Element) :
    element.tally branch loop bypass = element.weight branch loop bypass +
      (element.children.map (tally branch loop bypass)).sum := by
  cases element with
  | literal text => rfl
  | reference identifier kind => rfl
  | sequence items => rw [tally, walk, List.map_cons, List.sum_cons, sum_map_walkList, children]
  | alternation branches =>
    rw [tally, walk, List.map_cons, List.sum_cons, sum_map_walkList, children]
  | quantified item quantifier =>
    rw [tally, walk, List.map_cons, List.sum_cons, children, List.map_singleton, List.sum_singleton,
      tally]
  | foreign name => rfl

/-- A tally is made up of the numbers of elements of each sort. -/
theorem sum_map_weight (elements : List Element) :
    (elements.map (weight branch loop bypass)).sum =
      branch * elements.countP isAlternation + (branch + bypass) * elements.countP isSkippable +
        loop * elements.countP isRepeatable := by
  induction elements with
  | nil => rfl
  | cons element rest ih =>
    rw [List.map_cons, List.sum_cons, ih, weight, List.countP_cons, List.countP_cons,
      List.countP_cons]
    split_ifs <;> ring

end tally

end Element

namespace Box

/-! ### Tallies -/

/-- A number of something in a box, which each branch, each loop and each track past an item adds
to. -/
structure Tally (m : Metrics) (Has : Box Unit → Nat → Prop) (branch loop bypass : Nat) : Prop where
  label : ∀ kind text textWidth, Has (.ofLabel m kind text textWidth) 0
  line : ∀ items counts, List.Forall₂ Has items counts → Has (.ofItems m .line items) counts.sum
  branches : ∀ main below counts, (∀ item ∈ main :: below, item.branchRole = .branch) →
    List.Forall₂ Has (main :: below) counts →
      Has (.stacked m [] main below) (branch + counts.sum)
  repeated : ∀ item count, Has item count → Has (.repeated m item) (loop + count)
  skipped : ∀ item count, 0 < item.width → Has item count →
    Has (.stacked m [Element.bypassTrack m] item []) (branch + bypass + count)

end Box

namespace Element

variable {m : Metrics} {measure : Measure}

/-- Whatever an element is, the track to and from its box in a branch is that of a branch. -/
theorem branchRole_of_toBox {element : Element} {box : Box Unit}
    (h : element.toBox m measure = .ok box) : box.branchRole = .branch := by
  cases element with
  | literal text => exact (plain_of_measured h).branchRole_eq
  | reference identifier kind => exact (plain_of_measured h).branchRole_eq
  | sequence items =>
    obtain ⟨boxes, -, rfl⟩ := toBox_sequence_eq_ok_iff.mp h
    cases boxes <;> rfl
  | alternation branches =>
    obtain ⟨boxes, -, h⟩ := toBox_alternation_eq_ok_iff.mp h
    obtain ⟨main, below, -, rfl⟩ := ofBranches_zero_eq_ok_iff.mp h
    rfl
  | quantified item quantifier =>
    obtain ⟨inner, -, h⟩ := toBox_quantified_eq_ok_iff.mp h
    exact (plain_of_quantifiedBox h).branchRole_eq
  | foreign name => exact absurd h (by simp [toBox])

theorem width_pos_of_measured (hm : m.Sized) {kind : LabelKind} {text : String} {box : Box Unit}
    (h : Box.measured m measure kind text = .ok box) : 0 < box.width := by
  rw [Box.measured, bind_eq_ok_iff] at h
  obtain ⟨textWidth, hwidth, h⟩ := h
  obtain rfl := pure_eq_ok_iff.mp h
  have htext := Measure.pos_of_labelWidth hwidth
  have hpadding := hm.labelPadding
  show 0 < textWidth + m.labelPadding
  omega

/-- The box of an element in normal form has a width. -/
theorem width_pos_of_toBox (hm : m.Sized) {element : Element} (hnormal : element.Normal)
    {box : Box Unit} (h : element.toBox m measure = .ok box) : 0 < box.width := by
  have hr := hm.arcRadius
  induction hnormal generalizing box with
  | literal text => exact width_pos_of_measured hm h
  | reference identifier kind => exact width_pos_of_measured hm h
  | sequence nonempty normal ih =>
    obtain ⟨boxes, hboxes, rfl⟩ := toBox_sequence_eq_ok_iff.mp h
    have hpos : ∀ item ∈ boxes, 0 < item.width :=
      forall_mem_of_mapM_eq_ok hboxes fun item hitem box hbox => ih item hitem hbox
    -- there is a first item, and the others take no negative width
    obtain ⟨first, rest, rfl⟩ :=
      List.exists_cons_of_ne_nil (ne_nil_of_mapM_eq_ok hboxes nonempty)
    rw [List.forall_mem_cons] at hpos
    rw [Box.width_ofItems_cons]
    refine add_pos_of_pos_of_nonneg hpos.1 (List.sum_nonneg fun n hn => ?_)
    obtain ⟨item, hitem, rfl⟩ := List.mem_map.mp hn
    exact add_nonneg hm.itemGap (hpos.2 item hitem).le
  | alternation nonempty sequences normal ih =>
    obtain ⟨boxes, hboxes, h⟩ := toBox_alternation_eq_ok_iff.mp h
    obtain ⟨main, below, rfl, rfl⟩ := ofBranches_zero_eq_ok_iff.mp h
    have hpos : ∀ item ∈ main :: below, 0 < item.width :=
      forall_mem_of_mapM_eq_ok hboxes fun branch hbranch box hbox => ih branch hbranch hbox
    have hmain := hpos main (List.mem_cons_self ..)
    -- a branch is wider than its items by the arcs on both sides
    have hle : main.width ≤ (Box.stacked m [] main below).width - 4 * m.arcRadius :=
      Box.width_le_of_mem_stacked (List.mem_cons_self ..)
    omega
  | @quantified item quantifier settled normal ih =>
    obtain ⟨inner, hinner, h⟩ := toBox_quantified_eq_ok_iff.mp h
    have hpos := ih hinner
    have hrepeated : (Box.repeated m inner).width = inner.width + 2 * m.arcRadius := rfl
    have hstacked (item : Box Unit) :
        item.width ≤ (Box.stacked m [bypassTrack m] item []).width - 4 * m.arcRadius :=
      Box.width_le_of_mem_stacked (by simp)
    cases quantifier with
    | optional =>
      obtain rfl := Except.ok.inj h
      have hle := hstacked inner
      omega
    | star =>
      obtain rfl := Except.ok.inj h
      have hle := hstacked (Box.repeated m inner)
      omega
    | plus =>
      obtain rfl := Except.ok.inj h
      omega
    | unknown mark => exact absurd h (by simp [quantifiedBox])
  | foreign name => exact absurd h (by simp [toBox])

end Element

namespace Box.Tally

variable {m : Metrics} {measure : Measure} {Has : Box Unit → Nat → Prop} {branch loop bypass : Nat}

theorem of_quantifiedBox (h : Tally m Has branch loop bypass) (hm : m.Sized) {item : Element}
    {quantifier : Quantifier} {inner box : Box Unit} (hpos : 0 < inner.width)
    (hinner : Has inner (item.tally branch loop bypass))
    (hbox : Element.quantifiedBox m inner quantifier = .ok box) :
    Has box ((Element.quantified item quantifier).tally branch loop bypass) := by
  have hr := hm.arcRadius
  rw [Element.tally_eq_add, Element.children, List.map_singleton, List.sum_singleton]
  cases quantifier with
  | optional =>
    obtain rfl := Except.ok.inj hbox
    have hskipped := h.skipped inner _ hpos hinner
    have hweight : (Element.quantified item .optional).weight branch loop bypass =
        branch + bypass := by
      simp [Element.weight, Element.isAlternation, Element.isSkippable, Element.isRepeatable]
    rwa [hweight]
  | star =>
    obtain rfl := Except.ok.inj hbox
    have hwidth : (Box.repeated m inner).width = inner.width + 2 * m.arcRadius := rfl
    have hskipped := h.skipped (Box.repeated m inner) _ (by omega) (h.repeated inner _ hinner)
    have hweight : (Element.quantified item .star).weight branch loop bypass =
        branch + bypass + loop := by
      simp [Element.weight, Element.isAlternation, Element.isSkippable, Element.isRepeatable]
    rwa [hweight, add_assoc]
  | plus =>
    obtain rfl := Except.ok.inj hbox
    have hrepeated := h.repeated inner _ hinner
    have hweight : (Element.quantified item .plus).weight branch loop bypass = loop := by
      simp [Element.weight, Element.isAlternation, Element.isSkippable, Element.isRepeatable]
    rwa [hweight]
  | unknown mark => exact absurd hbox (by simp [Element.quantifiedBox])

/-- The box of an element in normal form has what the tally of the element says. -/
theorem of_toBox (h : Tally m Has branch loop bypass) (hm : m.Sized) {element : Element}
    (hnormal : element.Normal) {box : Box Unit} (hbox : element.toBox m measure = .ok box) :
    Has box (element.tally branch loop bypass) := by
  induction hnormal generalizing box with
  | literal text =>
    obtain ⟨textWidth, -, hbox⟩ := bind_eq_ok_iff.mp hbox
    obtain rfl := pure_eq_ok_iff.mp hbox
    exact h.label ..
  | reference identifier kind =>
    obtain ⟨textWidth, -, hbox⟩ := bind_eq_ok_iff.mp hbox
    obtain rfl := pure_eq_ok_iff.mp hbox
    exact h.label ..
  | @sequence items nonempty normal ih =>
    obtain ⟨boxes, hboxes, rfl⟩ := Element.toBox_sequence_eq_ok_iff.mp hbox
    have hitems : List.Forall₂ Has boxes (items.map (Element.tally branch loop bypass)) :=
      forall₂_of_mapM_eq_ok hboxes fun item hitem box hbox => ih item hitem hbox
    have hweight : (Element.sequence items).weight branch loop bypass = 0 := rfl
    rw [Element.tally_eq_add, hweight, zero_add]
    exact h.line boxes _ hitems
  | @alternation branches nonempty sequences normal ih =>
    obtain ⟨boxes, hboxes, hbox⟩ := Element.toBox_alternation_eq_ok_iff.mp hbox
    obtain ⟨main, below, rfl, rfl⟩ := Element.ofBranches_zero_eq_ok_iff.mp hbox
    have hitems : List.Forall₂ Has (main :: below)
        (branches.map (Element.tally branch loop bypass)) :=
      forall₂_of_mapM_eq_ok hboxes fun item hitem box hbox => ih item hitem hbox
    have hroles : ∀ item ∈ main :: below, item.branchRole = .branch :=
      forall_mem_of_mapM_eq_ok hboxes fun _ _ _ hbox => Element.branchRole_of_toBox hbox
    have hweight : (Element.alternation branches).weight branch loop bypass = branch := rfl
    rw [Element.tally_eq_add, hweight]
    exact h.branches main below _ hroles hitems
  | @quantified item quantifier settled normal ih =>
    obtain ⟨inner, hinner, hbox⟩ := Element.toBox_quantified_eq_ok_iff.mp hbox
    -- the item has a width, so there is something to pass by
    exact h.of_quantifiedBox hm (Element.width_pos_of_toBox hm normal hinner) (ih hinner) hbox
  | foreign name => exact absurd hbox (by simp [Element.toBox])

/-- The box of some alternatives has what their elements come to, and a branch if there are
several. -/
theorem of_alternativesBox (h : Tally m Has branch loop bypass) (hm : m.Sized)
    {alternatives : List (List Element)}
    (hnormal : ∀ alternative ∈ alternatives, ∀ element ∈ alternative, element.Normal)
    {box : Box Unit} (hbox : alternativesBox m measure alternatives = .ok box) :
    Has box ((if 1 < alternatives.length then branch else 0) +
      ((alternatives.flatMap Element.walkList).map (Element.weight branch loop bypass)).sum) := by
  rw [alternativesBox, bind_eq_ok_iff] at hbox
  obtain ⟨lines, hlines, hbox⟩ := hbox
  -- the counts of the lines, one for each alternative
  let counts := alternatives.map fun alternative =>
    (alternative.map (Element.tally branch loop bypass)).sum
  have hcounts : List.Forall₂ Has lines counts := by
    refine forall₂_of_mapM_eq_ok hlines fun alternative halternative line hline => ?_
    obtain ⟨boxes, hboxes, rfl⟩ := Element.line_eq_ok_iff.mp hline
    refine h.line boxes _ (forall₂_of_mapM_eq_ok hboxes fun element helement box hbox => ?_)
    exact h.of_toBox hm (hnormal alternative halternative element helement) hbox
  have hroles : ∀ line ∈ lines, line.branchRole = .branch := by
    refine forall_mem_of_mapM_eq_ok hlines fun alternative _ line hline => ?_
    obtain ⟨boxes, -, rfl⟩ := Element.line_eq_ok_iff.mp hline
    cases boxes <;> rfl
  have hsum : ((alternatives.flatMap Element.walkList).map
      (Element.weight branch loop bypass)).sum = counts.sum := by
    show _ = (alternatives.map fun alternative => _).sum
    clear hcounts hlines hnormal
    induction alternatives with
    | nil => rfl
    | cons alternative rest ih =>
      rw [List.flatMap_cons, List.map_append, List.sum_append, ih, Element.sum_map_walkList,
        List.map_cons, List.sum_cons]
  have hlength : alternatives.length = lines.length := by
    rw [hcounts.length_eq, List.length_map]
  rw [hsum, hlength]
  -- nothing, a single line, or a branch of several
  generalize counts = counts at hcounts
  cases hcounts with
  | nil =>
    obtain rfl := pure_eq_ok_iff.mp hbox
    exact h.line [] [] .nil
  | @cons first count rest counts hfirst hrest =>
    cases hrest with
    | nil =>
      obtain rfl := pure_eq_ok_iff.mp hbox
      rwa [List.sum_singleton, List.length_singleton, if_neg (lt_irrefl 1), zero_add]
    | @cons second count' rest counts hsecond hothers =>
      obtain rfl := pure_eq_ok_iff.mp hbox
      have hseveral : 1 < (first :: second :: rest).length := by
        rw [List.length_cons, List.length_cons]
        omega
      rw [if_pos hseveral]
      exact h.branches first (second :: rest) _ hroles (.cons hfirst (.cons hsecond hothers))

end Box.Tally

end SyntaxDiagram
