import Mathlib.Data.List.Basic

/-!
# Parts of a text

Where a part of a text ends can be told from the text alone: at a mark that is not in it
(`append_mark_inj`), or in front of the first character that does not belong to it (`span_append`).
Parts that are joined are the first one, and each of the others behind a separator
(`intercalate_cons`).
-/

namespace SyntaxDiagram

variable {α : Type}

/-- What stands in front of a mark that is not in it can be told from what follows. -/
theorem append_mark_inj {mark : α} {a b rest rest' : List α} (ha : mark ∉ a) (hb : mark ∉ b)
    (h : a ++ mark :: rest = b ++ mark :: rest') : a = b ∧ rest = rest' := by
  induction a generalizing b with
  | nil =>
    cases b with
    | nil => exact ⟨rfl, (List.cons.inj h).2⟩
    | cons y b => exact absurd ((List.cons.inj h).1 ▸ List.mem_cons_self ..) hb
  | cons x a ih =>
    cases b with
    | nil => exact absurd ((List.cons.inj h).1 ▸ List.mem_cons_self ..) ha
    | cons y b =>
      obtain ⟨rfl, htail⟩ := List.cons.inj h
      rw [List.mem_cons, not_or] at ha hb
      obtain ⟨hfront, hrest⟩ := ih ha.2 hb.2 htail
      exact ⟨by rw [hfront], hrest⟩

/-- A run of characters is cut off in front of the first one that does not belong to it. -/
theorem span_append {p : α → Bool} {a rest : List α} (ha : ∀ c ∈ a, p c = true)
    (hrest : ∀ c ∈ rest.head?, p c = false) :
    (a ++ rest).takeWhile p = a ∧ (a ++ rest).dropWhile p = rest := by
  rw [List.takeWhile_append_of_pos ha, List.dropWhile_append_of_pos ha]
  cases rest with
  | nil => exact ⟨List.append_nil a, rfl⟩
  | cons c rest =>
    have hc : p c = false := hrest c rfl
    rw [List.takeWhile_cons, List.dropWhile_cons, hc]
    exact ⟨List.append_nil a, rfl⟩

/-- Joined lists are the first one, and each of the others behind a separator. -/
theorem intercalate_cons (separator first : List α) (others : List (List α)) :
    separator.intercalate (first :: others) =
      first ++ others.flatMap fun other => separator ++ other := by
  induction others generalizing first with
  | nil => rw [List.intercalate_singleton, List.flatMap_nil, List.append_nil]
  | cons second others ih =>
    rw [List.intercalate_cons_cons, ih, List.flatMap_cons]
    simp only [List.append_assoc]

end SyntaxDiagram
