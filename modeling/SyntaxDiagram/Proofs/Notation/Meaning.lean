import SyntaxDiagram.Proofs.Notation.Scan

/-!
# What the grammar notation means

A reader of the notation goes through the marks of a text with a stack, one frame for each open
parenthesis, and knows of each the words of what was read (`Notation.language`).  Marks are read as
a language if they add it at the end of a frame (`Notation.Reads`), and as one item if they add it
as the last item, to which a sign applies (`Notation.ReadsItem`).  The marks of an element are read
as its language (`Element.reads_marks`), so the text of an entry is read as the language of the
entry (`Entry.language_notation`), and entries with the same text stand for the same words
(`Entry.language_eq_of_pretty_eq`).
-/

namespace SyntaxDiagram

namespace Notation

/-! ### The reader -/

/-- What was read inside of a parenthesis: the words of the alternatives in front of the last bar,
those of the items of the current alternative, and those of the last item, which a sign changes. -/
structure Frame where
  choices : Language Token
  items : Language Token
  last : Language Token

namespace Frame

/-- The frame at the beginning of an alternative, with the words of those in front of it. -/
def fresh (choices : Language Token) : Frame :=
  ⟨choices, 1, 1⟩

/-- The words of all that was read in a frame. -/
def language (frame : Frame) : Language Token :=
  frame.choices + frame.items * frame.last

/-- The frame with one more item. -/
def push (frame : Frame) (L : Language Token) : Frame :=
  { frame with items := frame.items * frame.last, last := L }

end Frame

/-- What a mark changes, innermost frame first. A mark that makes no sense changes nothing. -/
def step : List Frame → Mark → List Frame
  | frame :: stack, .token token => frame.push {[token]} :: stack
  | stack, .opening => .fresh 0 :: stack
  | inner :: outer :: stack, .closing => outer.push inner.language :: stack
  | frame :: stack, .bar => .fresh frame.language :: stack
  | frame :: stack, .sign quantifier =>
    { frame with last := quantifier.language frame.last } :: stack
  | stack, _ => stack

/-- The stack after some marks. -/
def run (marks : List Mark) (stack : List Frame) : List Frame :=
  marks.foldl step stack

/-- The words that a text in grammar notation stands for. -/
def language (text : List Char) : Language Token :=
  match run (scan text) [.fresh 0] with
  | frame :: _ => frame.language
  | [] => 0

theorem run_append (a b : List Mark) (stack : List Frame) :
    run (a ++ b) stack = run b (run a stack) :=
  List.foldl_append

/-! ### Reading marks -/

/-- Marks are read as a language: its words come behind those of the current alternative. -/
def Reads (marks : List Mark) (L : Language Token) : Prop :=
  ∀ (frame : Frame) (stack : List Frame), ∃ items last,
    run marks (frame :: stack) = ⟨frame.choices, items, last⟩ :: stack ∧
      items * last = frame.items * frame.last * L

/-- Marks are read as one item with a language. -/
def ReadsItem (marks : List Mark) (L : Language Token) : Prop :=
  ∀ (frame : Frame) (stack : List Frame), run marks (frame :: stack) = frame.push L :: stack

theorem ReadsItem.reads {marks : List Mark} {L : Language Token} (h : ReadsItem marks L) :
    Reads marks L :=
  fun frame stack => ⟨_, _, h frame stack, rfl⟩

theorem reads_nil : Reads [] 1 :=
  fun frame _ => ⟨frame.items, frame.last, rfl, (mul_one _).symm⟩

/-- Marks in a row are read as the product of their languages. -/
theorem Reads.append {a b : List Mark} {L M : Language Token} (ha : Reads a L) (hb : Reads b M) :
    Reads (a ++ b) (L * M) := by
  intro frame stack
  obtain ⟨items, last, hrun, hwords⟩ := ha frame stack
  obtain ⟨items', last', hrun', hwords'⟩ := hb ⟨frame.choices, items, last⟩ stack
  refine ⟨items', last', ?_, ?_⟩
  · rw [run_append, hrun, hrun']
  · rw [hwords', hwords, mul_assoc]

/-- Any number of parts in a row are read as the product of their languages. -/
theorem reads_flatMap {β : Type} {elements : List β} {marks : β → List Mark}
    {language : β → Language Token} (h : ∀ x ∈ elements, Reads (marks x) (language x)) :
    Reads (elements.flatMap marks) (elements.map language).prod := by
  induction elements with
  | nil => exact reads_nil
  | cons x rest ih =>
    rw [List.forall_mem_cons] at h
    rw [List.flatMap_cons, List.map_cons, List.prod_cons]
    exact h.1.append (ih h.2)

theorem readsItem_token (token : Token) : ReadsItem [.token token] {[token]} :=
  fun _ _ => rfl

/-- A sign behind one item changes the words of that item alone. -/
theorem ReadsItem.sign {marks : List Mark} {L : Language Token} (h : ReadsItem marks L)
    (quantifier : Quantifier) :
    ReadsItem (marks ++ [.sign quantifier]) (quantifier.language L) := by
  intro frame stack
  rw [run_append, h]
  rfl

/-! ### Alternatives -/

/-- After some alternatives with bars between them, a frame has the words of all of them. -/
theorem run_barred {β : Type} {elements : List β} {marks : β → List Mark}
    {language : β → Language Token} (hne : elements ≠ [])
    (h : ∀ x ∈ elements, Reads (marks x) (language x)) (choices : Language Token)
    (stack : List Frame) :
    ∃ frame : Frame,
      run ([Mark.bar].intercalate (elements.map marks)) (.fresh choices :: stack) =
          frame :: stack ∧
        frame.language = choices + (elements.map language).sum := by
  induction elements generalizing choices with
  | nil => exact absurd rfl hne
  | cons x rest ih =>
    rw [List.forall_mem_cons] at h
    obtain ⟨items, last, hrun, hwords⟩ := h.1 (.fresh choices) stack
    have hfirst : (Frame.mk choices items last).language = choices + language x := by
      have hone : items * last = 1 * 1 * language x := hwords
      rw [one_mul, one_mul] at hone
      rw [Frame.language, hone]
    cases rest with
    | nil =>
      refine ⟨⟨choices, items, last⟩, ?_, ?_⟩
      · rw [List.map_singleton, List.intercalate_singleton]
        exact hrun
      · rw [hfirst, List.map_singleton, List.sum_singleton]
    | cons y rest =>
      obtain ⟨frame, hrest, hlanguage⟩ :=
        ih (List.cons_ne_nil y rest) h.2 (choices + language x)
      refine ⟨frame, ?_, ?_⟩
      · -- the bar moves what was read so far to the alternatives that are complete
        rw [List.map_cons, List.map_cons, List.intercalate_cons_cons, run_append, run_append, hrun]
        rw [← hfirst] at hrest
        exact hrest
      · have hsum : ((x :: y :: rest).map language).sum =
            language x + ((y :: rest).map language).sum := List.sum_cons
        rw [hlanguage, hsum, add_assoc]

/-- Alternatives in parentheses are one item, with the words of all of them. -/
theorem readsItem_group {β : Type} {elements : List β} {marks : β → List Mark}
    {language : β → Language Token} (hne : elements ≠ [])
    (h : ∀ x ∈ elements, Reads (marks x) (language x)) :
    ReadsItem (.opening :: ([Mark.bar].intercalate (elements.map marks) ++ [.closing]))
      (elements.map language).sum := by
  intro outer stack
  obtain ⟨inner, hrun, hlanguage⟩ := run_barred hne h 0 (outer :: stack)
  rw [zero_add] at hlanguage
  have hopened : run (.opening :: ([Mark.bar].intercalate (elements.map marks) ++ [.closing]))
      (outer :: stack) =
        run [.closing] (run ([Mark.bar].intercalate (elements.map marks))
          (.fresh 0 :: outer :: stack)) := by
    rw [← run_append]
    rfl
  rw [hopened, hrun, ← hlanguage]
  rfl

/-- Alternatives are read as the words of all of them. -/
theorem language_of_scans {β : Type} {elements : List β} {marks : β → List Mark}
    {language : β → Language Token} {text : List Char} (hne : elements ≠ [])
    (h : ∀ x ∈ elements, Reads (marks x) (language x))
    (htext : Scans text ([Mark.bar].intercalate (elements.map marks))) :
    Notation.language text = (elements.map language).sum := by
  obtain ⟨frame, hrun, hlanguage⟩ := run_barred hne h 0 []
  rw [zero_add] at hlanguage
  rw [Notation.language, htext.scan_eq, hrun]
  exact hlanguage

end Notation

/-! ### Elements -/

namespace Element

open Notation (Mark Reads ReadsItem)

/-- The marks of an element are read as its language, and as one item if a sign may follow. -/
theorem reads_marks {element : Element} (hlegible : ∀ x ∈ element.walk, x.IsLegible) :
    Reads element.marks element.language ∧
      (element.takesSign = true → ReadsItem element.marks element.language) := by
  induction element with
  | literal text =>
    have hitem := Notation.readsItem_token (.literal text)
    exact ⟨hitem.reads, fun _ => hitem⟩
  | reference identifier kind =>
    have hitem := Notation.readsItem_token (.reference identifier)
    exact ⟨hitem.reads, fun _ => hitem⟩
  | sequence items ih =>
    rw [forall_mem_walk_sequence] at hlegible
    refine ⟨?_, fun htakes => absurd htakes Bool.false_ne_true⟩
    rw [marks, language, sequenceLanguage_eq_prod, marksList_eq_map, ← List.flatMap_def]
    exact Notation.reads_flatMap fun item hitem => (ih item hitem (hlegible.2 item hitem)).1
  | alternation branches ih =>
    rw [forall_mem_walk_alternation] at hlegible
    have hitem : ReadsItem (alternation branches).marks (alternation branches).language := by
      rw [marks, language, choiceLanguage_eq_sum, marksList_eq_map]
      exact Notation.readsItem_group hlegible.1 fun branch hbranch =>
        (ih branch hbranch (hlegible.2 branch hbranch)).1
    exact ⟨hitem.reads, fun _ => hitem⟩
  | quantified item quantifier ih =>
    rw [forall_mem_walk_quantified] at hlegible
    obtain ⟨hreads, htakesSign⟩ := ih hlegible.2
    refine ⟨?_, fun htakes => absurd htakes Bool.false_ne_true⟩
    rw [marks, language]
    by_cases htakes : item.takesSign = true
    · rw [if_pos htakes]
      exact ((htakesSign htakes).sign quantifier).reads
    · -- the parentheses make one item of what is inside
      have hgroup : ReadsItem (.opening :: (item.marks ++ [.closing])) item.language := by
        have hsingle := Notation.readsItem_group (List.cons_ne_nil item [])
          (List.forall_mem_singleton.mpr hreads)
        rwa [List.map_singleton, List.map_singleton, List.intercalate_singleton,
          List.sum_singleton] at hsingle
      rw [if_neg htakes]
      exact (hgroup.sign quantifier).reads
  | foreign name => exact absurd (hlegible _ (List.mem_cons_self ..)) not_false

end Element

/-! ### Entries -/

namespace Entry

/-- The text of the alternatives of an entry is read as the language of the entry. -/
theorem language_notation {entry : Entry} (h : entry.IsLegible) :
    Notation.language entry.alternativesText.toList = entry.language := by
  have hreads : ∀ alternative ∈ entry.alternatives,
      Notation.Reads (alternative.flatMap Element.marks)
        (Element.sequenceLanguage alternative) := by
    intro alternative halternative
    rw [Element.sequenceLanguage_eq_prod]
    exact Notation.reads_flatMap fun element helement =>
      (Element.reads_marks (h.of_mem halternative helement)).1
  have hscans := scans_alternativesText h
  rw [language]
  cases halternatives : entry.alternatives with
  | nil =>
    rw [halternatives] at hscans
    -- nothing is read, and only the empty word is in the language
    rw [Notation.language, hscans.scan_eq]
    show (0 + 1 * 1 : Language Token) = 1
    rw [mul_one, zero_add]
  | cons first rest =>
    rw [halternatives] at hreads hscans
    exact Notation.language_of_scans (List.cons_ne_nil first rest) hreads hscans

theorem pretty_of_rule {entry : Entry} (hrule : entry.kind = .rule)
    (hdocumentation : entry.documentation = "") :
    entry.pretty = entry.identifier ++ " -> " ++ entry.alternativesText := by
  rw [pretty, prettyAs, hrule, hdocumentation]
  simp [EntryKind.isFragment, alternativesText]

/-- Two rules with the same identifier and without documentation that have the same text stand for
the same words. -/
theorem language_eq_of_pretty_eq {a b : Entry} (hra : a.kind = .rule) (hrb : b.kind = .rule)
    (hidentifier : a.identifier = b.identifier) (hda : a.documentation = "")
    (hdb : b.documentation = "") (hla : a.IsLegible) (hlb : b.IsLegible)
    (h : a.pretty = b.pretty) : a.language = b.language := by
  rw [pretty_of_rule hra hda, pretty_of_rule hrb hdb, hidentifier] at h
  have htext : a.alternativesText.toList = b.alternativesText.toList := by
    have hchars := congrArg String.toList h
    rw [String.toList_append, String.toList_append (t := b.alternativesText)] at hchars
    exact List.append_cancel_left hchars
  rw [← language_notation hla, ← language_notation hlb, htext]

/-- Repetitions of a sequence, or nothing. -/
def repeatedSequence : Entry :=
  ⟨.rule, "list", "",
    [[.quantified (.sequence [.literal "a | (b", .reference "c_1" none]) .star], []]⟩

/-- Repetitions of the only branch of an alternation, with a sequence of its own in it, or
nothing. -/
def repeatedBranch : Entry :=
  ⟨.rule, "list", "",
    [[.quantified (.alternation [.sequence [.literal "a | (b",
      .sequence [.reference "c_1" (some .rule)]]]) .star], []]⟩

theorem language_eq_repeatedBranch :
    repeatedSequence.IsLegible ∧ repeatedBranch.IsLegible ∧
      repeatedSequence.pretty = "list -> ('a | (b' c_1)* | " ∧
      repeatedBranch.pretty = "list -> ('a | (b' c_1)* | " ∧
      repeatedSequence.language = repeatedBranch.language := by
  have hword : Notation.IsWord "c_1" := ⟨by decide, List.all_eq_true.mp (by decide)⟩
  have hla : repeatedSequence.IsLegible := by
    simp [IsLegible, repeatedSequence, walk, Element.walkList, Element.walk, Element.IsLegible,
      Quantifier.isKnown, hword]
  have hlb : repeatedBranch.IsLegible := by
    simp [IsLegible, repeatedBranch, walk, Element.walkList, Element.walk, Element.IsLegible,
      Quantifier.isKnown, hword]
  have hpa : repeatedSequence.pretty = "list -> ('a | (b' c_1)* | " := by decide +kernel
  have hpb : repeatedBranch.pretty = "list -> ('a | (b' c_1)* | " := by decide +kernel
  exact ⟨hla, hlb, hpa, hpb,
    language_eq_of_pretty_eq rfl rfl rfl rfl rfl hla hlb (hpa.trans hpb.symm)⟩

end Entry

end SyntaxDiagram
