import SyntaxDiagram.Markup.Escape
import Mathlib.Data.List.Infix
import Mathlib.Logic.Function.Basic

/-!
# Entities

`Markup.unescape` reads entities back as characters.  It undoes both ways of escaping, whatever
follows (`unescape_escapeAttributeChars`, `unescape_escapeTextChars`); what they write has no
ampersand but those of entities (`refersOnly_escapeText`) and nothing that would end an attribute
value or a run of text.
-/

namespace SyntaxDiagram.Markup

/-! ### Reading entities -/

/-- A text with every entity replaced by the character that it stands for. -/
def unescape : List Char → List Char
  | '&' :: 'a' :: 'm' :: 'p' :: ';' :: rest => '&' :: unescape rest
  | '&' :: 'a' :: 'p' :: 'o' :: 's' :: ';' :: rest => '\'' :: unescape rest
  | '&' :: 'q' :: 'u' :: 'o' :: 't' :: ';' :: rest => '"' :: unescape rest
  | '&' :: 'l' :: 't' :: ';' :: rest => '<' :: unescape rest
  | c :: rest => c :: unescape rest
  | [] => []

theorem unescape_cons {c : Char} (h : c ≠ '&') (rest : List Char) :
    unescape (c :: rest) = c :: unescape rest := by
  rw [unescape.eq_def]
  split <;> simp_all

theorem unescape_escapeAttributeChar (c : Char) (rest : List Char) :
    unescape (escapeAttributeChar c ++ rest) = c :: unescape rest := by
  unfold escapeAttributeChar
  split
  · rfl
  · rfl
  · rfl
  · rename_i hamp _ _
    exact unescape_cons hamp rest

theorem unescape_escapeTextChar (c : Char) (rest : List Char) :
    unescape (escapeTextChar c ++ rest) = c :: unescape rest := by
  unfold escapeTextChar
  split
  · rfl
  · exact unescape_escapeAttributeChar c rest

/-- Unescaping undoes the escapes of attribute values, whatever comes after them. -/
theorem unescape_escapeAttributeChars (text rest : List Char) :
    unescape (text.flatMap escapeAttributeChar ++ rest) = text ++ unescape rest := by
  induction text with
  | nil => rfl
  | cons c text ih =>
    rw [List.flatMap_cons, List.append_assoc, unescape_escapeAttributeChar, ih, List.cons_append]

/-- Unescaping undoes the escapes of running text, whatever comes after them. -/
theorem unescape_escapeTextChars (text rest : List Char) :
    unescape (text.flatMap escapeTextChar ++ rest) = text ++ unescape rest := by
  induction text with
  | nil => rfl
  | cons c text ih =>
    rw [List.flatMap_cons, List.append_assoc, unescape_escapeTextChar, ih, List.cons_append]

/-- An escaped attribute value is read back. -/
theorem unescape_escapeAttribute (text : String) :
    unescape (escapeAttribute text).toList = text.toList := by
  have h := unescape_escapeAttributeChars text.toList []
  rwa [List.append_nil, ← toList_escapeAttribute, unescape, List.append_nil] at h

/-- An escaped text is read back. -/
theorem unescape_escapeText (text : String) :
    unescape (escapeText text).toList = text.toList := by
  have h := unescape_escapeTextChars text.toList []
  rwa [List.append_nil, ← toList_escapeText, unescape, List.append_nil] at h

/-- Attribute values that are escaped alike are equal. -/
theorem injective_escapeAttribute : Function.Injective escapeAttribute := fun a b h =>
  String.toList_inj.mp (by rw [← unescape_escapeAttribute a, h, unescape_escapeAttribute b])

/-- Texts that are escaped alike are equal. -/
theorem injective_escapeText : Function.Injective escapeText := fun a b h =>
  String.toList_inj.mp (by rw [← unescape_escapeText a, h, unescape_escapeText b])

/-! ### Ampersands -/

/-- The entities, as they are written. -/
def entities : List (List Char) :=
  ["&amp;".toList, "&apos;".toList, "&quot;".toList, "&lt;".toList]

/-- Every ampersand in a text starts an entity. -/
def RefersOnly (text : List Char) : Prop :=
  ∀ rest, '&' :: rest <:+ text → ∃ entity ∈ entities, entity <+: '&' :: rest

theorem refersOnly_nil : RefersOnly [] := fun _ h => absurd (List.suffix_nil.mp h) (by simp)

/-- Any character but an ampersand may go in front of entities. -/
theorem RefersOnly.cons {c : Char} {text : List Char} (hc : c ≠ '&') (h : RefersOnly text) :
    RefersOnly (c :: text) := by
  intro rest hrest
  rcases List.suffix_cons_iff.mp hrest with heq | hrest
  · exact absurd (List.cons.inj heq).1.symm hc
  · exact h rest hrest

/-- An entity in front of a text keeps all ampersands of the text. -/
theorem RefersOnly.entity {name text : List Char} (hname : '&' ∉ name)
    (hentity : '&' :: name ∈ entities) (h : RefersOnly text) :
    RefersOnly ('&' :: name ++ text) := by
  have hname : RefersOnly (name ++ text) := by
    clear hentity
    induction name with
    | nil => exact h
    | cons c name ih =>
      rw [List.mem_cons, not_or] at hname
      exact (ih hname.2).cons (Ne.symm hname.1)
  intro rest hrest
  rcases List.suffix_cons_iff.mp hrest with heq | hrest
  · rw [heq]
    exact ⟨_, hentity, List.prefix_append _ _⟩
  · exact hname rest hrest

/-- An escaped character of an attribute value brings in entities alone. -/
theorem RefersOnly.escapeAttributeChar {text : List Char} (h : RefersOnly text) (c : Char) :
    RefersOnly (escapeAttributeChar c ++ text) := by
  unfold Markup.escapeAttributeChar
  split
  · exact h.entity (show '&' ∉ "amp;".toList by decide) (by decide)
  · exact h.entity (show '&' ∉ "apos;".toList by decide) (by decide)
  · exact h.entity (show '&' ∉ "quot;".toList by decide) (by decide)
  · rename_i hamp _ _
    exact h.cons hamp

/-- An escaped character of a text brings in entities alone. -/
theorem RefersOnly.escapeTextChar {text : List Char} (h : RefersOnly text) (c : Char) :
    RefersOnly (escapeTextChar c ++ text) := by
  unfold Markup.escapeTextChar
  split
  · exact h.entity (show '&' ∉ "lt;".toList by decide) (by decide)
  · exact h.escapeAttributeChar c

/-- In an escaped attribute value every ampersand starts an entity. -/
theorem refersOnly_escapeAttribute (text : String) : RefersOnly (escapeAttribute text).toList := by
  rw [toList_escapeAttribute]
  induction text.toList with
  | nil => exact refersOnly_nil
  | cons c text ih => exact ih.escapeAttributeChar c

/-- In an escaped text every ampersand starts an entity. -/
theorem refersOnly_escapeText (text : String) : RefersOnly (escapeText text).toList := by
  rw [toList_escapeText]
  induction text.toList with
  | nil => exact refersOnly_nil
  | cons c text ih => exact ih.escapeTextChar c

/-! ### One character after the other -/

/-- A text with a piece in place of every occurrence of a character. -/
def substitute (c : Char) (piece text : String) : String :=
  String.ofList (text.toList.flatMap fun d => if d = c then piece.toList else [d])

/-- Attribute values can be escaped by one substitution after the other, if the ampersand comes
first. -/
theorem escapeAttribute_eq_substitute (text : String) :
    escapeAttribute text =
      substitute '"' "&quot;" (substitute '\'' "&apos;" (substitute '&' "&amp;" text)) := by
  simp only [escapeAttribute, substitute, String.toList_ofList, List.flatMap_assoc]
  congr 2
  funext c
  unfold escapeAttributeChar
  split
  · rfl
  · rfl
  · rfl
  · rename_i hamp hapos hquot
    -- none of the three substitutions finds anything
    have hamp : c ≠ '&' := hamp
    have hapos : c ≠ '\'' := hapos
    have hquot : c ≠ '"' := hquot
    rw [if_neg hamp, List.flatMap_singleton, if_neg hapos, List.flatMap_singleton, if_neg hquot]

/-- Running text is escaped like an attribute value, and then its angle brackets. -/
theorem escapeText_eq_substitute (text : String) :
    escapeText text = substitute '<' "&lt;" (escapeAttribute text) := by
  simp only [escapeText, escapeAttribute, substitute, String.toList_ofList, List.flatMap_assoc]
  congr 2
  funext c
  unfold escapeTextChar escapeAttributeChar
  split
  · rfl
  · rename_i hlt
    split
    · rfl
    · rfl
    · rfl
    · have hlt : c ≠ '<' := hlt
      rw [List.flatMap_singleton, if_neg hlt]

/-! ### Characters that stay -/

/-- No quotation mark is left in an escaped attribute value. -/
theorem quote_notMem_escapeAttribute (text : String) : '"' ∉ (escapeAttribute text).toList := by
  rw [toList_escapeAttribute, List.mem_flatMap]
  rintro ⟨c, -, hc⟩
  unfold escapeAttributeChar at hc
  split at hc
  · exact absurd hc (by decide)
  · exact absurd hc (by decide)
  · exact absurd hc (by decide)
  · rename_i hquot
    exact hquot (List.mem_singleton.mp hc).symm

/-- No angle bracket is left in an escaped text. -/
theorem angle_notMem_escapeText (text : String) : '<' ∉ (escapeText text).toList := by
  rw [toList_escapeText, List.mem_flatMap]
  rintro ⟨c, -, hc⟩
  unfold escapeTextChar escapeAttributeChar at hc
  split at hc
  · exact absurd hc (by decide)
  · rename_i hlt
    split at hc
    · exact absurd hc (by decide)
    · exact absurd hc (by decide)
    · exact absurd hc (by decide)
    · exact hlt (List.mem_singleton.mp hc).symm

/-- An angle bracket is not escaped in an attribute value. -/
theorem angle_mem_escapeAttribute_iff (text : String) :
    '<' ∈ (escapeAttribute text).toList ↔ '<' ∈ text.toList := by
  have hchar (c : Char) : '<' ∈ escapeAttributeChar c ↔ c = '<' := by
    unfold escapeAttributeChar
    split
    · decide
    · decide
    · decide
    · rw [List.mem_singleton, eq_comm]
  rw [toList_escapeAttribute, List.mem_flatMap]
  simp only [hchar, exists_eq_right]

/-- Of a piece that starts with a character outside of a text, no part is in that text. -/
theorem cons_infix_append_iff {c : Char} {piece front rest : List Char} (h : c ∉ front) :
    c :: piece <:+: front ++ rest ↔ c :: piece <:+: rest := by
  induction front with
  | nil => rfl
  | cons d front ih =>
    rw [List.mem_cons, not_or] at h
    rw [List.cons_append, List.infix_cons_iff, ih h.2, List.cons_prefix_cons]
    exact or_iff_right fun heq => h.1 heq.1

/-- An escaped text begins with a piece that is not escaped iff the text itself does. -/
theorem prefix_escapeTextChars_iff {piece text : List Char}
    (h : ∀ c ∈ piece, escapeTextChar c = [c]) :
    piece <+: text.flatMap escapeTextChar ↔ piece <+: text := by
  induction piece generalizing text with
  | nil => simp
  | cons c piece ih =>
    rw [List.forall_mem_cons] at h
    cases text with
    | nil => simp
    | cons d text =>
      by_cases hcd : c = d
      · subst hcd
        rw [List.flatMap_cons, h.1, List.singleton_append, List.cons_prefix_cons,
          List.cons_prefix_cons, ih h.2]
      · -- an entity starts with an ampersand, and anything else with the character itself
        have hhead : ∃ rest, escapeTextChar d = d :: rest ∨ escapeTextChar d = '&' :: rest := by
          unfold escapeTextChar escapeAttributeChar
          split
          · exact ⟨_, Or.inr rfl⟩
          · split <;> first | exact ⟨_, Or.inr rfl⟩ | exact ⟨_, Or.inl rfl⟩
        have hamp : c ≠ '&' := by
          rintro rfl
          exact absurd h.1 (by decide)
        obtain ⟨rest, hrest | hrest⟩ := hhead
        · simp [hrest, hcd]
        · simp [hrest, hcd, hamp]

/-- A piece of text that is not escaped, and starts like no part of an entity, is found where it was
before. -/
theorem infix_escapeText_iff {c : Char} {piece : List Char}
    (h : ∀ d ∈ c :: piece, escapeTextChar d = [d]) (hc : ∀ entity ∈ entities, c ∉ entity)
    (text : String) :
    c :: piece <:+: (escapeText text).toList ↔ c :: piece <:+: text.toList := by
  rw [toList_escapeText]
  induction text.toList with
  | nil => rfl
  | cons d text ih =>
    -- a character stands for itself, or for an entity that lacks the first one searched for
    have hd : escapeTextChar d = [d] ∨ c ∉ escapeTextChar d ∧ escapeTextChar d ≠ [d] := by
      unfold escapeTextChar escapeAttributeChar
      split
      · exact Or.inr ⟨hc "&lt;".toList (by decide), by decide⟩
      · split
        · exact Or.inr ⟨hc "&amp;".toList (by decide), by decide⟩
        · exact Or.inr ⟨hc "&apos;".toList (by decide), by decide⟩
        · exact Or.inr ⟨hc "&quot;".toList (by decide), by decide⟩
        · exact Or.inl rfl
    rw [List.flatMap_cons, List.infix_cons_iff, ← ih]
    rcases hd with hd | ⟨hmem, hd⟩
    · have hprefix : c :: piece <+: (d :: text).flatMap escapeTextChar ↔ c :: piece <+: d :: text :=
        prefix_escapeTextChars_iff h
      rw [List.flatMap_cons, hd, List.singleton_append] at hprefix
      rw [hd, List.singleton_append, List.infix_cons_iff, hprefix]
    · rw [cons_infix_append_iff hmem, List.cons_prefix_cons]
      refine (or_iff_right ?_).symm
      rintro ⟨rfl, -⟩
      exact hd (h c (List.mem_cons_self ..))

end SyntaxDiagram.Markup
