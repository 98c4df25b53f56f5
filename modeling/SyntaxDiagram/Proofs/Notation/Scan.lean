import SyntaxDiagram.Proofs.Element.Language
import SyntaxDiagram.Proofs.Element.Printing

/-!
# Marks of the grammar notation

The text of an element or of the alternatives of an entry is scanned into marks: tokens,
parentheses, bars and signs (`Notation.scan`).  A literal ends at the next quote and a word at the
next character that cannot be in one, so each part is scanned by itself whatever stands around it,
if only no word runs on into what follows (`Notation.Scans`).  The marks of an element depend on its
shape alone (`Element.marks`).  They are what its text is scanned into (`Element.scans_pretty`), and
with bars between the alternatives what the text of an entry is (`Entry.scans_alternativesText`).
-/

namespace SyntaxDiagram

namespace Notation

/-! ### Marks -/

/-- A mark of the grammar notation. -/
inductive Mark where
  | token (token : Token)
  | opening
  | closing
  | bar
  | sign (quantifier : Quantifier)
  deriving DecidableEq, Repr

/-- The mark that a character is by itself. -/
def Mark.ofChar? : Char → Option Mark
  | '(' => some .opening
  | ')' => some .closing
  | '|' => some .bar
  | '?' => some (.sign .optional)
  | '*' => some (.sign .star)
  | '+' => some (.sign .plus)
  | _ => none

/-- Whether a character can be in a word: it is no blank, no quote and no mark by itself. -/
def isWordChar (c : Char) : Bool :=
  c != ' ' && c != '\'' && (Mark.ofChar? c).isNone

example : "Wort_1 ä(".toList.map isWordChar =
    [true, true, true, true, true, true, false, true, false] := by decide

/-- A word: not empty, and without a character that cannot be in one. Letters, digits and
underscores can be in a word. -/
def IsWord (text : String) : Prop :=
  text.toList ≠ [] ∧ ∀ c ∈ text.toList, isWordChar c = true

/-- The marks of a text, with blanks left out. -/
def scan : List Char → List Mark
  | [] => []
  | c :: rest =>
    if c = ' ' then scan rest
    else if c = '\'' then
      .token (.literal (String.ofList (rest.takeWhile (· != '\'')))) ::
        scan (rest.dropWhile (· != '\'')).tail
    else
      match Mark.ofChar? c with
      | some mark => mark :: scan rest
      | none =>
        .token (.reference (String.ofList (c :: rest.takeWhile isWordChar))) ::
          scan (rest.dropWhile isWordChar)
termination_by chars => chars.length
decreasing_by
  · exact Nat.lt_succ_self _
  · have hle := (List.dropWhile_suffix (l := rest) (· != '\'')).length_le
    rw [List.length_tail, List.length_cons]
    omega
  · exact Nat.lt_succ_self _
  · exact Nat.lt_succ_of_le (List.dropWhile_suffix isWordChar).length_le

/-! ### Scanning one mark -/

/-- No word runs on into a text. -/
def EndsWord (rest : List Char) : Prop :=
  ∀ c ∈ rest.head?, isWordChar c = false

theorem endsWord_nil : EndsWord [] :=
  fun _ hc => nomatch hc

theorem endsWord_cons {c : Char} (hc : isWordChar c = false) (rest : List Char) :
    EndsWord (c :: rest) := by
  intro d hd
  rwa [← Option.some.inj hd]

/-- No word runs on into two such texts in a row. -/
theorem EndsWord.append {a b : List Char} (ha : EndsWord a) (hb : EndsWord b) :
    EndsWord (a ++ b) := by
  cases a with
  | nil => exact hb
  | cons c a => exact ha

theorem scan_nil : scan [] = [] := by
  rw [scan]

theorem scan_blank (rest : List Char) : scan (' ' :: rest) = scan rest := by
  rw [scan, if_pos rfl]

/-- A character that is a mark by itself is scanned as one. -/
theorem scan_mark {c : Char} {mark : Mark} (hc : Mark.ofChar? c = some mark) (rest : List Char) :
    scan (c :: rest) = mark :: scan rest := by
  have hblank : c ≠ ' ' := by
    rintro rfl
    cases hc
  have hquote : c ≠ '\'' := by
    rintro rfl
    cases hc
  rw [scan, if_neg hblank, if_neg hquote, hc]

/-- A text in quotes is scanned as one literal, if it has no quote inside. -/
theorem scan_literal {text : String} (htext : '\'' ∉ text.toList) (rest : List Char) :
    scan ('\'' :: (text.toList ++ '\'' :: rest)) = .token (.literal text) :: scan rest := by
  have hinside : ∀ c ∈ text.toList, (c != '\'') = true := by
    intro c hc
    rw [bne_iff_ne]
    rintro rfl
    exact htext hc
  have hend : ∀ c ∈ ('\'' :: rest).head?, (c != '\'') = false := by
    intro c hc
    rw [← Option.some.inj hc]
    rfl
  obtain ⟨htake, hdrop⟩ := span_append hinside hend
  rw [scan, if_neg (by decide), if_pos rfl, htake, hdrop, String.ofList_toList, List.tail_cons]

/-- A word is scanned as one reference, if none runs on behind it. -/
theorem scan_word {word : String} (hword : IsWord word) {rest : List Char} (hrest : EndsWord rest) :
    scan (word.toList ++ rest) = .token (.reference word) :: scan rest := by
  obtain ⟨hne, hchars⟩ := hword
  have hspan := span_append (fun c hc => hchars c hc) hrest
  have hback := word.ofList_toList
  generalize word.toList = chars at hne hchars hspan hback ⊢
  obtain ⟨c, tail, rfl⟩ := List.exists_cons_of_ne_nil hne
  rw [List.forall_mem_cons] at hchars
  obtain ⟨htake, hdrop⟩ := span_append hchars.2 hrest
  have hfirst := hchars.1
  simp only [isWordChar, Bool.and_eq_true, bne_iff_ne, Option.isNone_iff_eq_none] at hfirst
  rw [List.cons_append, scan, if_neg hfirst.1.1, if_neg hfirst.1.2, hfirst.2]
  dsimp only
  rw [htake, hdrop, hback]

/-! ### Scanning parts -/

/-- A text is scanned into some marks, whatever follows, if only no word runs on. -/
def Scans (text : List Char) (marks : List Mark) : Prop :=
  ∀ rest, EndsWord rest → scan (text ++ rest) = marks ++ scan rest

/-- A text that is scanned whatever follows is scanned when it stands alone. -/
theorem Scans.scan_eq {text : List Char} {marks : List Mark} (h : Scans text marks) :
    scan text = marks := by
  have hscan := h [] endsWord_nil
  rwa [scan_nil, List.append_nil, List.append_nil] at hscan

theorem scans_nil : Scans [] [] :=
  fun _ _ => rfl

theorem scans_literal {text : String} (htext : '\'' ∉ text.toList) :
    Scans ("'" ++ text ++ "'").toList [.token (.literal text)] := by
  intro rest _
  have hchars : ("'" ++ text ++ "'").toList ++ rest = '\'' :: (text.toList ++ '\'' :: rest) := by
    simp
  rw [hchars, scan_literal htext]
  rfl

theorem scans_word {word : String} (hword : IsWord word) :
    Scans word.toList [.token (.reference word)] :=
  fun _ hrest => scan_word hword hrest

/-- A text with a mark behind it that is a single character. -/
theorem Scans.mark {text : List Char} {marks : List Mark} (h : Scans text marks) {c : Char}
    {mark : Mark} (hc : Mark.ofChar? c = some mark) : Scans (text ++ [c]) (marks ++ [mark]) := by
  intro rest _
  have hend : EndsWord (c :: rest) := by
    refine endsWord_cons ?_ rest
    rw [isWordChar, hc, Option.isNone_some, Bool.and_false]
  rw [List.append_assoc, List.append_assoc, List.singleton_append, List.singleton_append,
    h _ hend, scan_mark hc]

/-- A text in parentheses. -/
theorem Scans.group {text : List Char} {marks : List Mark} (h : Scans text marks) :
    Scans ('(' :: (text ++ [')'])) (.opening :: (marks ++ [.closing])) := by
  intro rest hrest
  have hclosed := h.mark (c := ')') rfl rest hrest
  rw [List.cons_append, scan_mark rfl, hclosed]
  rfl

/-- Texts with a separator between them, if the separator is scanned whatever follows and ends
words. -/
theorem Scans.joined {separator : List Char} {between : List Mark} (hne : separator ≠ [])
    (hends : EndsWord separator)
    (hseparator : ∀ rest, scan (separator ++ rest) = between ++ scan rest)
    {texts : List (List Char)} {marks : List (List Mark)} (h : List.Forall₂ Scans texts marks) :
    Scans (separator.intercalate texts) (between.intercalate marks) := by
  have hothers {texts : List (List Char)} {marks : List (List Mark)}
      (h : List.Forall₂ Scans texts marks) :
      EndsWord (texts.flatMap (separator ++ ·)) ∧
        Scans (texts.flatMap (separator ++ ·)) (marks.flatMap (between ++ ·)) := by
    induction h with
    | nil => exact ⟨endsWord_nil, scans_nil⟩
    | @cons text marks texts _ hfirst _ ih =>
      obtain ⟨ihEnds, ihScans⟩ := ih
      rw [List.flatMap_cons, List.flatMap_cons]
      constructor
      · obtain ⟨c, tail, hc⟩ := List.exists_cons_of_ne_nil hne
        rw [hc] at hends ⊢
        exact hends
      · intro rest hrest
        simp only [List.append_assoc]
        rw [hseparator, hfirst _ (ihEnds.append hrest), ihScans rest hrest]
  cases h with
  | nil => exact scans_nil
  | cons hfirst hrest =>
    obtain ⟨hend, hscan⟩ := hothers hrest
    rw [intercalate_cons, intercalate_cons]
    intro rest hrest
    rw [List.append_assoc, hfirst _ (hend.append hrest), hscan rest hrest, List.append_assoc]

/-- Texts with blanks between them. -/
theorem Scans.spaced {texts : List (List Char)} {marks : List (List Mark)}
    (h : List.Forall₂ Scans texts marks) : Scans ([' '].intercalate texts) marks.flatten := by
  have hblank : ∀ rest, scan ([' '] ++ rest) = [] ++ scan rest := scan_blank
  have hjoined : Scans ([' '].intercalate texts) (([] : List Mark).intercalate marks) :=
    Scans.joined (by decide) (endsWord_cons rfl []) hblank h
  have hflatten : ([] : List Mark).intercalate marks = marks.flatten := by
    cases marks with
    | nil => rfl
    | cons first rest =>
      rw [intercalate_cons, List.flatten_cons, List.flatten_eq_flatMap]
      rfl
  rwa [hflatten] at hjoined

/-- Texts with bars between them. -/
theorem Scans.barred {texts : List (List Char)} {marks : List (List Mark)}
    (h : List.Forall₂ Scans texts marks) :
    Scans ([' ', '|', ' '].intercalate texts) ([Mark.bar].intercalate marks) := by
  refine Scans.joined (by decide) (endsWord_cons rfl _) (fun rest => ?_) h
  show scan (' ' :: '|' :: ' ' :: rest) = Mark.bar :: scan rest
  rw [scan_blank, scan_mark rfl, scan_blank]

end Notation

/-! ### Elements -/

namespace Element

open Notation (Mark Scans IsWord)

mutual

/-- The marks of an element. -/
def marks : Element → List Mark
  | .literal text => [.token (.literal text)]
  | .reference identifier _ => [.token (.reference identifier)]
  | .sequence items => (marksList items).flatten
  | .alternation branches => .opening :: ([Mark.bar].intercalate (marksList branches) ++ [.closing])
  | .quantified item quantifier =>
    if item.takesSign then marks item ++ [.sign quantifier]
    else .opening :: (marks item ++ [.closing]) ++ [.sign quantifier]
  | .foreign _ => []

/-- The marks of each of some elements. -/
def marksList : List Element → List (List Mark)
  | [] => []
  | element :: rest => marks element :: marksList rest

end

theorem marksList_eq_map (elements : List Element) : marksList elements = elements.map marks := by
  induction elements with
  | nil => rfl
  | cons element rest ih => rw [marksList, ih, List.map_cons]

/-- An element can be read from its notation, apart from those below it: a literal has no quote in
it, a reference is a word, an alternation has a branch, as every one that is built, and a quantifier
has a sign. -/
def IsLegible : Element → Prop
  | .literal text => '\'' ∉ text.toList
  | .reference identifier _ => IsWord identifier
  | .alternation branches => branches ≠ []
  | .quantified _ quantifier => quantifier.isKnown = true
  | .foreign _ => False
  | _ => True

/-- A known quantifier is written with one sign, which is a mark by itself. -/
theorem exists_sign {quantifier : Quantifier} (h : quantifier.isKnown = true) :
    ∃ c, quantifier.mark.toList = [c] ∧ Mark.ofChar? c = some (.sign quantifier) := by
  cases quantifier with
  | unknown mark => cases h
  | optional => exact ⟨'?', rfl, rfl⟩
  | star => exact ⟨'*', rfl, rfl⟩
  | plus => exact ⟨'+', rfl, rfl⟩

/-- Elements in a row are scanned one by one, if each of them is. -/
theorem forall₂_scans {elements : List Element}
    (h : ∀ element ∈ elements, Scans element.pretty.toList element.marks) :
    List.Forall₂ Scans (elements.map (·.pretty.toList)) (elements.map marks) := by
  rw [List.forall₂_map_left_iff, List.forall₂_map_right_iff, List.forall₂_same]
  exact h

/-- The text of an element is scanned into its marks. -/
theorem scans_pretty {element : Element} (h : ∀ x ∈ element.walk, x.IsLegible) :
    Scans element.pretty.toList element.marks := by
  induction element with
  | literal text => exact Notation.scans_literal (h _ (List.mem_cons_self ..))
  | reference identifier kind => exact Notation.scans_word (h _ (List.mem_cons_self ..))
  | sequence items ih =>
    rw [forall_mem_walk_sequence] at h
    -- blanks stand between the items
    have hscans := Scans.spaced (forall₂_scans fun item hitem => ih item hitem (h.2 item hitem))
    have htext : (sequence items).pretty.toList =
        [' '].intercalate (items.map (·.pretty.toList)) := by
      rw [pretty, prettyList_eq_map, String.toList_intercalate, List.map_map]
      rfl
    rw [htext, marks, marksList_eq_map]
    exact hscans
  | alternation branches ih =>
    rw [forall_mem_walk_alternation] at h
    -- bars stand between the branches, and parentheses around them
    have hscans := (Scans.barred (forall₂_scans fun branch hbranch =>
      ih branch hbranch (h.2 branch hbranch))).group
    have htext : (alternation branches).pretty.toList =
        '(' :: ([' ', '|', ' '].intercalate (branches.map (·.pretty.toList)) ++ [')']) := by
      rw [pretty, prettyList_eq_map, String.toList_append, String.toList_append,
        String.toList_intercalate, List.map_map]
      rfl
    rw [htext, marks, marksList_eq_map]
    exact hscans
  | quantified item quantifier ih =>
    rw [forall_mem_walk_quantified] at h
    obtain ⟨c, hsign, hc⟩ := exists_sign h.1
    have hitem := ih h.2
    rw [pretty, marks]
    -- the sign goes behind the item, in parentheses unless it takes signs as it stands
    by_cases htakes : item.takesSign = true
    · rw [if_pos htakes, if_pos htakes, String.toList_append, hsign]
      exact hitem.mark hc
    · have htext : ("(" ++ item.pretty ++ ")" ++ quantifier.mark).toList =
          '(' :: (item.pretty.toList ++ [')']) ++ [c] := by
        rw [String.toList_append, String.toList_append, String.toList_append, hsign]
        rfl
      rw [if_neg htakes, if_neg htakes, htext]
      exact hitem.group.mark hc
  | foreign name => exact absurd (h _ (List.mem_cons_self ..)) not_false

end Element

/-! ### Entries -/

namespace Entry

/-- Whether all elements of an entry can be read from its notation. -/
def IsLegible (entry : Entry) : Prop :=
  ∀ x ∈ entry.walk, x.IsLegible

/-- What stands in a legible entry is legible. -/
theorem IsLegible.of_mem {entry : Entry} (h : entry.IsLegible) {alternative : List Element}
    (halternative : alternative ∈ entry.alternatives) {element : Element}
    (helement : element ∈ alternative) : ∀ x ∈ element.walk, x.IsLegible := by
  intro x hx
  refine h x (List.mem_flatMap.mpr ⟨alternative, halternative, ?_⟩)
  rw [Element.walkList_eq_flatMap]
  exact List.mem_flatMap.mpr ⟨element, helement, hx⟩

/-- The text of the alternatives of an entry. -/
def alternativesText (entry : Entry) : String :=
  " | ".intercalate
    (entry.alternatives.map fun alternative => " ".intercalate (alternative.map Element.pretty))

/-- The text of the alternatives of an entry is scanned into the marks of their elements, with bars
between the alternatives. -/
theorem scans_alternativesText {entry : Entry} (h : entry.IsLegible) :
    Notation.Scans entry.alternativesText.toList
      ([Notation.Mark.bar].intercalate
        (entry.alternatives.map fun alternative => alternative.flatMap Element.marks)) := by
  rw [alternativesText, String.toList_intercalate, List.map_map]
  refine Notation.Scans.barred ?_
  rw [List.forall₂_map_left_iff, List.forall₂_map_right_iff, List.forall₂_same]
  intro alternative halternative
  have hscans := Notation.Scans.spaced (Element.forall₂_scans fun element helement =>
    Element.scans_pretty (h.of_mem halternative helement))
  rw [← List.flatMap_def] at hscans
  rw [Function.comp_apply, String.toList_intercalate, List.map_map]
  exact hscans

end Entry

end SyntaxDiagram
