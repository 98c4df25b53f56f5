import SyntaxDiagram.Proofs.Element.Induction
import SyntaxDiagram.Entry.Basic
import Mathlib.Algebra.BigOperators.Group.List.Basic
import Mathlib.Computability.Language

/-!
# The language of an entry

The words that a production stands for, as lists of tokens: the literals and the references at its
leaves.  A sequence stands for the product of its items (`Element.sequenceLanguage_eq_prod`), an
alternation for the sum of its branches (`Element.choiceLanguage_eq_sum`).
-/

namespace SyntaxDiagram

/-- What stands at the leaf of an element: the text of a literal, or the identifier of a reference,
whatever the kind of symbol it names. -/
inductive Token where
  | literal (text : String)
  | reference (identifier : String)
  deriving DecidableEq, Repr

/-- The language of repetitions of the words of a language; a mark without a meaning has none. -/
def Quantifier.language (L : Language Token) : Quantifier → Language Token
  | .optional => 1 + L
  | .star => KStar.kstar L
  | .plus => L * KStar.kstar L
  | .unknown _ => 0

namespace Element

mutual

/-- The words that an element stands for. -/
def language : Element → Language Token
  | .literal text => {[.literal text]}
  | .reference identifier _ => {[.reference identifier]}
  | .sequence items => sequenceLanguage items
  | .alternation branches => choiceLanguage branches
  | .quantified item quantifier => quantifier.language (language item)
  | .foreign _ => 0

/-- The words of elements one after the other. -/
def sequenceLanguage : List Element → Language Token
  | [] => 1
  | element :: rest => language element * sequenceLanguage rest

/-- The words of any of some elements. -/
def choiceLanguage : List Element → Language Token
  | [] => 0
  | element :: rest => language element + choiceLanguage rest

end

theorem sequenceLanguage_eq_prod (elements : List Element) :
    sequenceLanguage elements = (elements.map language).prod := by
  induction elements with
  | nil => rfl
  | cons element rest ih => rw [sequenceLanguage, ih, List.map_cons, List.prod_cons]

theorem choiceLanguage_eq_sum (elements : List Element) :
    choiceLanguage elements = (elements.map language).sum := by
  induction elements with
  | nil => rfl
  | cons element rest ih => rw [choiceLanguage, ih, List.map_cons, List.sum_cons]

end Element

/-- The words of any of some alternatives; no alternative at all is the same as the empty one. -/
def alternativesLanguage : List (List Element) → Language Token
  | [] => 1
  | alternatives => (alternatives.map Element.sequenceLanguage).sum

/-- The words that an entry stands for. -/
def Entry.language (entry : Entry) : Language Token :=
  alternativesLanguage entry.alternatives

end SyntaxDiagram
