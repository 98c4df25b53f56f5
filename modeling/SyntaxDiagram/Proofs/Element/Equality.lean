import SyntaxDiagram.Element.Equality
import SyntaxDiagram.Proofs.Element.Induction
import SyntaxDiagram.Proofs.Except

/-!
# Equal elements

A comparison finds elements equal iff they are the same one and nothing in it is foreign
(`Element.equal_eq_true_iff`), and so for alternatives (`equalAlternatives_eq_true_iff`).
-/

namespace SyntaxDiagram

theorem ite_bind_eq_true_iff {x y : Except Fault Bool} :
    (do if ← x then y else return false) = .ok true ↔ x = .ok true ∧ y = .ok true := by
  cases x with
  | error fault => simp [bind, Except.bind]
  | ok b => cases b <;> simp [bind, Except.bind, pure, Except.pure]

namespace Element

/-- Lists of elements are found equal iff they are the same and the comparison of each with itself
says so. -/
theorem equalList_eq_true_iff {xs ys : List Element}
    (h : ∀ x ∈ xs, ∀ y, equal x y = .ok true ↔ x = y ∧ ∀ name, .foreign name ∉ x.walk) :
    equalList xs ys = .ok true ↔ xs = ys ∧ ∀ name, .foreign name ∉ walkList xs := by
  induction xs generalizing ys with
  | nil => cases ys <;> simp [equalList, walkList]
  | cons x xs ih =>
    rw [List.forall_mem_cons] at h
    cases ys with
    | nil => simp [equalList]
    | cons y ys =>
      rw [equalList, ite_bind_eq_true_iff, h.1, ih h.2, walkList]
      simp only [List.mem_append, not_or, forall_and, List.cons.injEq]
      tauto

theorem equal_eq_true_iff {x y : Element} :
    equal x y = .ok true ↔ x = y ∧ ∀ name, .foreign name ∉ x.walk := by
  induction x generalizing y with
  | literal text => cases y <;> simp [equal, walk]
  | reference identifier kind => cases y <;> simp [equal, walk]
  | sequence items ih =>
    cases y <;> simp [equal, walk, equalList_eq_true_iff fun x hx _ => ih x hx]
  | alternation branches ih =>
    cases y <;> simp [equal, walk, equalList_eq_true_iff fun x hx _ => ih x hx]
  | quantified item quantifier ih =>
    cases y with
    | quantified item' quantifier' =>
      simp only [equal, ite_bind_eq_true_iff, ih, pure_eq_ok_iff, beq_iff_eq, walk,
        Element.quantified.injEq, List.mem_cons, reduceCtorEq, false_or]
      tauto
    | _ => simp [equal]
  | foreign name => cases y <;> simp [equal, walk]

end Element

theorem equalAlternatives_eq_true_iff {xs ys : List (List Element)} :
    equalAlternatives xs ys = .ok true ↔
      xs = ys ∧ ∀ alternative ∈ xs, ∀ element ∈ alternative, ∀ name,
        .foreign name ∉ element.walk := by
  induction xs generalizing ys with
  | nil => cases ys <;> simp [equalAlternatives]
  | cons x xs ih =>
    cases ys with
    | nil => simp [equalAlternatives]
    | cons y ys =>
      rw [equalAlternatives, ite_bind_eq_true_iff, ih,
        Element.equalList_eq_true_iff fun _ _ _ => Element.equal_eq_true_iff,
        Element.walkList_eq_flatMap]
      simp only [List.mem_flatMap, not_exists, not_and, List.forall_mem_cons, List.cons.injEq]
      constructor
      · rintro ⟨⟨rfl, hx⟩, rfl, hxs⟩
        exact ⟨⟨rfl, rfl⟩, fun element hmem name => hx name element hmem, hxs⟩
      · rintro ⟨⟨rfl, rfl⟩, hx, hxs⟩
        exact ⟨⟨rfl, fun name element hmem => hx element hmem name⟩, rfl, hxs⟩

end SyntaxDiagram
