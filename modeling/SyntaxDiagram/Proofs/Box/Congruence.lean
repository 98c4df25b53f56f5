import SyntaxDiagram.Proofs.Box.Captions

/-!
# Two layouts side by side

A relation between boxes is a congruence when the builders carry it over from their items to what
they make of them (`Box.Congruence`).  It then holds between the boxes that two measures give to the
same element or to the same alternatives, if the widths of all labels are related in the way that
the label boxes need (`Box.Congruence.of_toBox`, `Box.Congruence.of_alternativesBox`).  The builders
do not ask where a box goes in a wider space, so two layouts may differ in that as well
(`alternativesBox_alignment`).
-/

namespace SyntaxDiagram

/-- The widths that two measures give to a label are in a relation. -/
def Measure.Relates (L : Int → Int → Prop) (measure measure' : Measure) (label : String) : Prop :=
  ∀ width width', measure.labelWidth label = .ok width → measure'.labelWidth label = .ok width' →
    L width width'

namespace Box

/-- A relation between boxes that the builders carry over from their items, and that holds between
two boxes for a label when the widths of its text are in another relation. -/
structure Congruence (m : Metrics) (L : Int → Int → Prop) (R : Box Unit → Box Unit → Prop) :
    Prop where
  label : ∀ kind text width width', L width width' →
    R (.ofLabel m kind text width) (.ofLabel m kind text width')
  line : ∀ role items items', List.Forall₂ R items items' →
    R (.ofItems m role items) (.ofItems m role items')
  stacked : ∀ above above' main main' below below', List.Forall₂ R above above' → R main main' →
    List.Forall₂ R below below' → R (.stacked m above main below) (.stacked m above' main' below')
  repeated : ∀ item item', R item item' → R (.repeated m item) (.repeated m item')

namespace Congruence

variable {m : Metrics} {L : Int → Int → Prop} {R : Box Unit → Box Unit → Prop}
  {measure measure' : Measure} {box box' : Box Unit} (h : Congruence m L R)

include h

/-- Two boxes for one label are related when its widths are. -/
theorem of_measured {kind : LabelKind} {text : String} (hlabel : measure.Relates L measure' text)
    (hbox : measured m measure kind text = .ok box)
    (hbox' : measured m measure' kind text = .ok box') : R box box' := by
  obtain ⟨width, hwidth, hbox⟩ := bind_eq_ok_iff.mp hbox
  obtain ⟨width', hwidth', hbox'⟩ := bind_eq_ok_iff.mp hbox'
  obtain rfl := pure_eq_ok_iff.mp hbox
  obtain rfl := pure_eq_ok_iff.mp hbox'
  exact h.label kind text width width' (hlabel width width' hwidth hwidth')

/-- What a quantifier makes of related items is related. -/
theorem of_quantifiedBox {item item' : Box Unit} {quantifier : Quantifier} (hitem : R item item')
    (hbox : Element.quantifiedBox m item quantifier = .ok box)
    (hbox' : Element.quantifiedBox m item' quantifier = .ok box') : R box box' := by
  have hbypass : List.Forall₂ R [Element.bypassTrack m] [Element.bypassTrack m] :=
    .cons (h.line .bypass [] [] .nil) .nil
  cases quantifier with
  | optional =>
    obtain rfl := Except.ok.inj hbox
    obtain rfl := Except.ok.inj hbox'
    exact h.stacked _ _ _ _ [] [] hbypass hitem .nil
  | star =>
    obtain rfl := Except.ok.inj hbox
    obtain rfl := Except.ok.inj hbox'
    exact h.stacked _ _ _ _ [] [] hbypass (h.repeated item item' hitem) .nil
  | plus =>
    obtain rfl := Except.ok.inj hbox
    obtain rfl := Except.ok.inj hbox'
    exact h.repeated item item' hitem
  | unknown mark => exact absurd hbox (by simp [Element.quantifiedBox])

/-- The boxes of an element under two measures are related when its labels are. -/
theorem of_toBox {element : Element}
    (hlabels : ∀ caption ∈ element.captions, measure.Relates L measure' caption.2)
    (hbox : element.toBox m measure = .ok box) (hbox' : element.toBox m measure' = .ok box') :
    R box box' := by
  induction element generalizing box box' with
  | literal text => exact h.of_measured (hlabels _ (List.mem_singleton_self _)) hbox hbox'
  | reference identifier kind =>
    exact h.of_measured (hlabels _ (List.mem_singleton_self _)) hbox hbox'
  | sequence items ih =>
    rw [Element.captions_sequence, List.forall_mem_flatMap] at hlabels
    obtain ⟨boxes, hboxes, rfl⟩ := Element.toBox_sequence_eq_ok_iff.mp hbox
    obtain ⟨boxes', hboxes', rfl⟩ := Element.toBox_sequence_eq_ok_iff.mp hbox'
    have hitems : List.Forall₂ R boxes boxes' :=
      forall₂_of_mapM_of_mapM hboxes hboxes' fun item hitem _ _ =>
        ih item hitem (hlabels item hitem)
    exact h.line .line boxes boxes' hitems
  | alternation branches ih =>
    rw [Element.captions_alternation, List.forall_mem_flatMap] at hlabels
    obtain ⟨boxes, hboxes, hbox⟩ := Element.toBox_alternation_eq_ok_iff.mp hbox
    obtain ⟨boxes', hboxes', hbox'⟩ := Element.toBox_alternation_eq_ok_iff.mp hbox'
    have hitems : List.Forall₂ R boxes boxes' :=
      forall₂_of_mapM_of_mapM hboxes hboxes' fun item hitem _ _ =>
        ih item hitem (hlabels item hitem)
    -- both branches have their first item on the main track
    obtain ⟨main, below, rfl, rfl⟩ := Element.ofBranches_zero_eq_ok_iff.mp hbox
    obtain ⟨main', below', rfl, rfl⟩ := Element.ofBranches_zero_eq_ok_iff.mp hbox'
    obtain ⟨hmain, hbelow⟩ := List.forall₂_cons.mp hitems
    exact h.stacked [] [] main main' below below' .nil hmain hbelow
  | quantified item quantifier ih =>
    rw [Element.captions_quantified] at hlabels
    obtain ⟨inner, hinner, hbox⟩ := Element.toBox_quantified_eq_ok_iff.mp hbox
    obtain ⟨inner', hinner', hbox'⟩ := Element.toBox_quantified_eq_ok_iff.mp hbox'
    exact h.of_quantifiedBox (ih hlabels hinner hinner') hbox hbox'
  | foreign name => exact absurd hbox (by simp [Element.toBox])

/-- The boxes of some alternatives under two measures are related when their labels are. -/
theorem of_alternativesBox {alternatives : List (List Element)}
    (hlabels : ∀ alternative ∈ alternatives, ∀ element ∈ alternative,
      ∀ caption ∈ element.captions, measure.Relates L measure' caption.2)
    (hbox : alternativesBox m measure alternatives = .ok box)
    (hbox' : alternativesBox m measure' alternatives = .ok box') : R box box' := by
  rw [alternativesBox, bind_eq_ok_iff] at hbox hbox'
  obtain ⟨lines, hlines, hbox⟩ := hbox
  obtain ⟨lines', hlines', hbox'⟩ := hbox'
  have hall : List.Forall₂ R lines lines' := by
    refine forall₂_of_mapM_of_mapM hlines hlines' fun alternative halternative line line' => ?_
    intro hline hline'
    obtain ⟨boxes, hboxes, rfl⟩ := Element.line_eq_ok_iff.mp hline
    obtain ⟨boxes', hboxes', rfl⟩ := Element.line_eq_ok_iff.mp hline'
    refine h.line .line boxes boxes' (forall₂_of_mapM_of_mapM hboxes hboxes' ?_)
    exact fun element helement _ _ =>
      h.of_toBox (hlabels alternative halternative element helement)
  -- nothing, a single line, or a branch of several
  cases hall with
  | nil =>
    obtain rfl := pure_eq_ok_iff.mp hbox
    obtain rfl := pure_eq_ok_iff.mp hbox'
    exact h.line .line [] [] .nil
  | cons hfirst hrest =>
    cases hrest with
    | nil =>
      obtain rfl := pure_eq_ok_iff.mp hbox
      obtain rfl := pure_eq_ok_iff.mp hbox'
      exact hfirst
    | cons hsecond hothers =>
      obtain rfl := pure_eq_ok_iff.mp hbox
      obtain rfl := pure_eq_ok_iff.mp hbox'
      exact h.stacked [] [] _ _ _ _ .nil hfirst (.cons hsecond hothers)

end Congruence

end Box

/-! ### Alignment -/

section alignment

variable (m : Metrics) (alignment : Alignment)

theorem fan_alignment (bend away distance : Int) (reaches : List (Int × Int)) :
    fan { m with alignment } bend away distance reaches = fan m bend away distance reaches := by
  induction reaches generalizing bend away distance with
  | nil => rfl
  | cons reach rest ih => simp only [fan, ih]

theorem Box.stacked_alignment (above : List (Box Unit)) (main : Box Unit)
    (below : List (Box Unit)) :
    stacked { m with alignment } above main below = stacked m above main below := by
  unfold stacked
  simp only [fan_alignment]
  rfl

theorem Element.quantifiedBox_alignment (item : Box Unit) (quantifier : Quantifier) :
    quantifiedBox { m with alignment } item quantifier = quantifiedBox m item quantifier := by
  cases quantifier with
  | optional => exact congrArg Except.ok (Box.stacked_alignment ..)
  | star => exact congrArg Except.ok (Box.stacked_alignment ..)
  | plus => rfl
  | unknown mark => rfl

/-- Where boxes go in a wider space makes no difference to how they are built. -/
theorem Element.toBox_alignment (measure : Measure) (element : Element) :
    element.toBox { m with alignment } measure = element.toBox m measure := by
  induction element with
  | literal text => rfl
  | reference identifier kind => rfl
  | sequence items ih =>
    rw [toBox, toBox, toBoxes_eq_mapM, toBoxes_eq_mapM, mapM_congr ih]
    rfl
  | alternation branches ih =>
    have hbranches (boxes : List (Box Unit)) :
        Box.ofBranches { m with alignment } 0 boxes = Box.ofBranches m 0 boxes := by
      cases boxes with
      | nil => rfl
      | cons main below => exact congrArg Except.ok (Box.stacked_alignment ..)
    rw [toBox, toBox, toBoxes_eq_mapM, toBoxes_eq_mapM, mapM_congr ih, funext hbranches]
  | quantified item quantifier ih =>
    rw [toBox, toBox, ih]
    exact congrArg _ (funext fun inner => quantifiedBox_alignment m alignment inner quantifier)
  | foreign name => rfl

/-- The sizes of boxes do not depend on where a box goes in a wider space. -/
theorem alternativesBox_alignment (measure : Measure) (alternatives : List (List Element)) :
    alternativesBox { m with alignment } measure alternatives =
      alternativesBox m measure alternatives := by
  have hlines (elements : List Element) : Element.toBoxes { m with alignment } measure elements =
      Element.toBoxes m measure elements := by
    rw [Element.toBoxes_eq_mapM, Element.toBoxes_eq_mapM]
    exact mapM_congr fun element _ => Element.toBox_alignment m alignment measure element
  unfold alternativesBox
  simp only [hlines, Box.stacked_alignment]
  rfl

end alignment

end SyntaxDiagram
