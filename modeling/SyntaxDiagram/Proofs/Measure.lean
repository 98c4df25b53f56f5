import SyntaxDiagram.Measure
import SyntaxDiagram.Proofs.Except

/-!
# Widths of labels

A label either has a width that it can be drawn with, or it fails in one of the ways of
`Measure.Fails`; `Measure.labelWidth` gives the one or the other
(`Measure.error?_labelWidth_eq_none_iff`, `Measure.error?_labelWidth_eq_some_iff`).
-/

namespace SyntaxDiagram

/-- A width that a label can be drawn with: finite and positive. -/
def Number.IsWidth (width : Number) : Prop :=
  width.isFinite = .ok true ∧ width.isNonpositive = false

/-- A finite number can be rounded up. -/
theorem Number.exists_ceil?_of_isFinite {x : Number} (h : x.isFinite = .ok true) :
    ∃ n, x.ceil? = some n := by
  cases x with
  | int n => exact ⟨n, rfl⟩
  | real x =>
    cases x with
    | finite negative significand exponent => exact ⟨_, rfl⟩
    | nan => exact absurd h (by decide)
    | infinity negative => exact absurd h (by cases negative <;> decide)

namespace Measure

variable {measure measure' : Measure} {label : String} {fault : Fault}

/-- An answer of a measure that is not a width: no number at all, one that is not finite, or zero or
less. -/
inductive IsNoWidth : Option Number → Prop
  | missing : IsNoWidth none
  | infinite {width : Number} (infinite : width.isFinite = .ok false) : IsNoWidth (some width)
  | nonpositive {width : Number} (finite : width.isFinite = .ok true)
    (nonpositive : width.isNonpositive = true) : IsNoWidth (some width)

/-- How a label is left without a width: the measure has none for it, or raises a fault of its own,
or answers with an integer too large to be told from an infinite number. -/
inductive Fails (measure : Measure) (label : String) : Fault → Prop
  | unmeasurable {width : Option Number} (answer : measure label = .ok width)
    (noWidth : IsNoWidth width) : Fails measure label (.ofCause (.unmeasurable label width))
  | raised {fault : Fault} (answer : measure label = .error fault) : Fails measure label fault
  | overflow {width : Number} {cause : Overflow} (answer : measure label = .ok (some width))
    (untestable : width.isFinite = .error cause) : Fails measure label (.overflow cause)

/-- A width that cannot be tested for being finite raises the overflow itself. -/
theorem wholeUnits_of_untestable {width : Number} {cause : Overflow}
    (h : width.isFinite = .error cause) : wholeUnits width = .error (.overflow cause) := by
  rw [wholeUnits, h]
  rfl

theorem wholeUnits_of_infinite {width : Number} (h : width.isFinite = .ok false) :
    wholeUnits width = .ok none := by
  rw [wholeUnits, h]
  rfl

/-- A finite width is rounded up, unless it is zero or less. -/
theorem wholeUnits_of_finite {width : Number} (h : width.isFinite = .ok true) :
    wholeUnits width = .ok (if width.isNonpositive then none else width.ceil?) := by
  rw [wholeUnits, h]
  rfl

/-- A label whose measure answers takes the whole units of the answer, or is unmeasurable. -/
theorem labelWidth_of_answer {width : Number} (answer : measure label = .ok (some width)) :
    measure.labelWidth label = wholeUnits width >>= fun units => match units with
      | some units => .ok units
      | none => .error (.ofCause (.unmeasurable label (some width))) := by
  rw [labelWidth, answer]
  rfl

/-- Each way to fail ends with the fault it is named for. -/
theorem Fails.labelWidth_eq (h : measure.Fails label fault) :
    measure.labelWidth label = .error fault := by
  cases h with
  | raised answer =>
    rw [labelWidth, answer]
    rfl
  | overflow answer untestable =>
    rw [labelWidth_of_answer answer, wholeUnits_of_untestable untestable]
    rfl
  | unmeasurable answer noWidth =>
    cases noWidth with
    | missing =>
      rw [labelWidth, answer]
      rfl
    | infinite infinite =>
      rw [labelWidth_of_answer answer, wholeUnits_of_infinite infinite]
      rfl
    | nonpositive finite nonpositive =>
      rw [labelWidth_of_answer answer, wholeUnits_of_finite finite, nonpositive]
      rfl

theorem labelWidth_of_isWidth {width : Number} {units : Int}
    (answer : measure label = .ok (some width)) (h : width.IsWidth)
    (hceil : width.ceil? = some units) : measure.labelWidth label = .ok units := by
  obtain ⟨finite, positive⟩ := h
  rw [labelWidth_of_answer answer, wholeUnits_of_finite finite, positive, hceil]
  rfl

/-- A label has a width, or it fails. -/
theorem isWidth_or_fails (measure : Measure) (label : String) :
    (∃ width, measure label = .ok (some width) ∧ width.IsWidth) ∨
      ∃ fault, measure.Fails label fault := by
  cases answer : measure label with
  | error fault => exact Or.inr ⟨fault, .raised answer⟩
  | ok width =>
    cases width with
    | none => exact Or.inr ⟨_, .unmeasurable answer .missing⟩
    | some width =>
      cases finite : width.isFinite with
      | error cause => exact Or.inr ⟨_, .overflow answer finite⟩
      | ok isFinite =>
        cases isFinite with
        | false => exact Or.inr ⟨_, .unmeasurable answer (.infinite finite)⟩
        | true =>
          cases positive : width.isNonpositive with
          | true => exact Or.inr ⟨_, .unmeasurable answer (.nonpositive finite positive)⟩
          | false => exact Or.inl ⟨width, rfl, finite, positive⟩

/-- A label takes the whole units that the width takes which its measure gives it. -/
theorem labelWidth_eq_ok_iff {units : Int} :
    measure.labelWidth label = .ok units ↔
      ∃ width, measure label = .ok (some width) ∧ width.IsWidth ∧ width.ceil? = some units := by
  constructor
  · intro hunits
    rcases measure.isWidth_or_fails label with ⟨width, answer, hwidth⟩ | ⟨fault, hfails⟩
    · obtain ⟨units', hceil⟩ := Number.exists_ceil?_of_isFinite hwidth.1
      rw [labelWidth_of_isWidth answer hwidth hceil] at hunits
      rw [← Except.ok.inj hunits]
      exact ⟨width, answer, hwidth, hceil⟩
    · rw [hfails.labelWidth_eq] at hunits
      cases hunits
  · rintro ⟨width, answer, hwidth, hceil⟩
    exact labelWidth_of_isWidth answer hwidth hceil

theorem error?_labelWidth_eq_none_iff :
    error? (measure.labelWidth label) = none ↔
      ∃ width, measure label = .ok (some width) ∧ width.IsWidth := by
  rw [error?_eq_none_iff]
  simp only [labelWidth_eq_ok_iff]
  constructor
  · rintro ⟨units, width, answer, hwidth, -⟩
    exact ⟨width, answer, hwidth⟩
  · rintro ⟨width, answer, hwidth⟩
    obtain ⟨units, hceil⟩ := Number.exists_ceil?_of_isFinite hwidth.1
    exact ⟨units, width, answer, hwidth, hceil⟩

/-- The fault of a label is one of the ways to be left without a width. -/
theorem error?_labelWidth_eq_some_iff :
    error? (measure.labelWidth label) = some fault ↔ measure.Fails label fault := by
  rw [error?_eq_some_iff]
  constructor
  · intro herror
    rcases measure.isWidth_or_fails label with hwidth | ⟨fault', hfails⟩
    · rw [← error?_labelWidth_eq_none_iff, herror] at hwidth
      cases hwidth
    · rw [hfails.labelWidth_eq] at herror
      rwa [← Except.error.inj herror]
  · exact Fails.labelWidth_eq

theorem labelWidth_congr (h : measure' label = measure label) :
    measure'.labelWidth label = measure.labelWidth label := by
  rw [labelWidth, labelWidth, h]

end Measure

end SyntaxDiagram
