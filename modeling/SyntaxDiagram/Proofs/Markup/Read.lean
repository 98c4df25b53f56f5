import SyntaxDiagram.Proofs.Markup.Scan

/-!
# Reading markup

`Markup.read` turns a text back into trees.  A tree is read back from its own text up to what
writing does to it (`read_write`): attributes come in the order of their names, texts that meet are
one text, and a group starts with a new line.  Trees that differ in more than that have different
texts.
-/

namespace SyntaxDiagram.Markup

/-! ### Runs of text -/

/-- A part of a text: a tag, or all that stands between two tags, as it is written. -/
inductive Segment where
  | opening (tag : String) (attributes : List (String × String))
  | closing (tag : String)
  | run (chars : List Char)
  deriving DecidableEq, Repr

/-- Characters in front of some segments, as part of the run that comes first, if one does. -/
def consRun (chars : List Char) : List Segment → List Segment
  | .run others :: rest => .run (chars ++ others) :: rest
  | rest => .run chars :: rest

/-- A piece in front of some segments. -/
def consPiece : Piece → List Segment → List Segment
  | .opening tag attributes, rest => .opening tag attributes :: rest
  | .closing tag, rest => .closing tag :: rest
  | .char c, rest => consRun [c] rest

/-- The segments that some pieces make up. -/
def segments (pieces : List Piece) : List Segment :=
  pieces.foldr consPiece []

theorem consRun_consRun (c : Char) (chars : List Char) (rest : List Segment) :
    consRun [c] (consRun chars rest) = consRun (c :: chars) rest := by
  cases rest with
  | nil => rfl
  | cons segment rest => cases segment <;> rfl

theorem segments_chars {chars : List Char} (h : chars ≠ []) (rest : List Piece) :
    segments (chars.map .char ++ rest) = consRun chars (segments rest) := by
  induction chars with
  | nil => exact absurd rfl h
  | cons c chars ih =>
    change consRun [c] (segments (chars.map .char ++ rest)) = _
    by_cases hchars : chars = []
    · rw [hchars]
      rfl
    · rw [ih hchars, consRun_consRun]

/-! ### The reader -/

/-- The trees at the front of what is read of a text from its end, and for each element that was
closed there and not opened yet its tag and the trees after it, the innermost first. -/
abbrev Growth := List Markup × List (String × List Markup)

/-- An attribute as it is read. -/
def readField (field : String × String) : String × AttributeValue :=
  (field.1, .text (String.ofList (unescape field.2.toList)))

/-- What is read with one more segment in front. A tag opens the element that was closed last. -/
def grow : Segment → Growth → Option Growth
  | .run chars, (trees, pending) =>
    some (.text (String.ofList (unescape chars)) :: trees, pending)
  | .closing tag, (trees, pending) => some ([], (tag, trees) :: pending)
  | .opening tag attributes, (children, (name, trees) :: pending) =>
    if tag = name then some (.element tag (attributes.map readField) children :: trees, pending)
    else none
  | .opening .., (_, []) => none

/-- What is read of some segments. -/
def growAll : List Segment → Option Growth
  | [] => some ([], [])
  | segment :: rest => (growAll rest).bind (grow segment)

/-- The trees that a text is read as. Every element has to be opened and closed in turn. -/
def read (text : String) : Option (List Markup) := do
  match growAll (segments (← scan text)) with
  | some (trees, []) => some trees
  | _ => none

/-! ### Normal form -/

/-- A text in front of some trees: texts that meet are one, and an empty one is left out. -/
def consText (value : String) : List Markup → List Markup
  | .text next :: rest => .text (value ++ next) :: rest
  | rest => if value.isEmpty then rest else .text value :: rest

/-- A tree in front of some trees. -/
def consTree : Markup → List Markup → List Markup
  | .text value, rest => consText value rest
  | tree, rest => tree :: rest

/-- An attribute with its value as a text. -/
def shownField (field : String × AttributeValue) : String × AttributeValue :=
  (field.1, .text field.2.shown)

mutual

/-- A tree as it is read: the attributes in the order of their names, and what is in a group or in a
whole figure after a new line. -/
def normal : Markup → Markup
  | .element tag attributes children =>
    .element tag ((attributes.insertionSort fun a b => a.1 ≤ b.1).map shownField)
      (if tag = "g" ∨ tag = "svg" then consText "\n" (normalAll children) else normalAll children)
  | tree => tree

/-- Some trees in a row as they are read. -/
def normalAll : List Markup → List Markup
  | [] => []
  | tree :: rest => consTree (normal tree) (normalAll rest)

end

/-! ### Reading what was written -/

section

variable {rest : List Piece} {trees : List Markup} {pending : List (String × List Markup)}

/-- A written attribute is read back as its name and what it shows. -/
theorem readField_writtenField (field : String × AttributeValue) :
    readField (writtenField field) = shownField field := by
  rw [readField, writtenField, unescape_escapeAttribute, String.ofList_toList, shownField]

/-- What is read starts with a text only if a run was in front. -/
theorem growAll_ne_text {parts : List Segment} (h : growAll parts = some (trees, pending))
    (hparts : ∀ chars others, parts ≠ .run chars :: others) (next : String)
    (others : List Markup) : trees ≠ .text next :: others := by
  rintro rfl
  cases parts with
  | nil => exact absurd h (by simp [growAll])
  | cons part parts =>
    rw [growAll] at h
    obtain ⟨⟨inner, outer⟩, -, h⟩ := Option.bind_eq_some_iff.mp h
    cases part with
    | run chars => exact hparts chars parts rfl
    | closing tag => exact absurd h (by simp [grow])
    | opening tag attributes =>
      cases outer with
      | nil => exact absurd h (by simp [grow])
      | cons first outer =>
        rw [grow] at h
        split_ifs at h
        simp at h

theorem consText_of_ne_text {value : String} (hvalue : value ≠ "")
    (h : ∀ next others, trees ≠ .text next :: others) :
    consText value trees = .text value :: trees := by
  have hempty : value.isEmpty = false := by simpa using hvalue
  unfold consText
  split
  · rename_i next others
    exact absurd rfl (h next others)
  · rw [hempty]
    rfl

theorem consText_empty : consText "" trees = trees := by
  unfold consText
  split
  · rw [String.empty_append]
  · rfl

/-- A written text in front is read as a text in front. -/
theorem growAll_text (value : String) (h : growAll (segments rest) = some (trees, pending)) :
    growAll (segments ((escapeText value).toList.map .char ++ rest)) =
      some (consText value trees, pending) := by
  by_cases hempty : value = ""
  · rw [hempty, consText_empty]
    exact h
  have hread := unescape_escapeText value
  have hchars : (escapeText value).toList ≠ [] := by
    intro hnil
    rw [hnil] at hread
    exact hempty (String.toList_inj.mp hread.symm)
  rw [segments_chars hchars]
  by_cases hrun : ∃ chars others, segments rest = .run chars :: others
  · -- the text joins the one that is in front already
    obtain ⟨chars, others, hsegments⟩ := hrun
    rw [hsegments, growAll] at h
    obtain ⟨⟨trees', pending'⟩, hothers, h⟩ := Option.bind_eq_some_iff.mp h
    obtain ⟨rfl, rfl⟩ := Prod.mk.inj (Option.some.inj h)
    rw [hsegments, consRun, growAll, hothers, Option.bind_some, grow, consText, toList_escapeText,
      unescape_escapeTextChars, String.ofList_append, String.ofList_toList]
  · have hsegments : ∀ chars others, segments rest ≠ .run chars :: others :=
      fun chars others heq => hrun ⟨chars, others, heq⟩
    have hcons : consRun (escapeText value).toList (segments rest) =
        .run (escapeText value).toList :: segments rest := by
      unfold consRun
      split
      · rename_i chars others heq
        exact absurd heq (hsegments chars others)
      · rfl
    rw [hcons, growAll, h, Option.bind_some, grow, hread, String.ofList_toList,
      consText_of_ne_text hempty (growAll_ne_text h hsegments)]

/-- What is in a group or in a whole figure starts on a new line, and no other content does. -/
theorem opensLine_iff {tag : String} : opensLine tag = true ↔ tag = "g" ∨ tag = "svg" := by
  simp [opensLine]

/-- Trees in a row are grown one after the other, in front of what follows. -/
theorem growAll_piecesAll {forest : List Markup}
    (h : ∀ tree ∈ forest, ∀ rest trees pending,
      growAll (segments rest) = some (trees, pending) →
        growAll (segments (tree.pieces ++ rest)) = some (consTree tree.normal trees, pending))
    (hrest : growAll (segments rest) = some ([], pending)) :
    growAll (segments (piecesAll forest ++ rest)) = some (normalAll forest, pending) := by
  induction forest with
  | nil => exact hrest
  | cons tree forest ih =>
    rw [List.forall_mem_cons] at h
    rw [piecesAll, List.append_assoc, normalAll]
    exact h.1 _ _ _ (ih h.2)

/-- In front of what is read already, the pieces of a tree are read as its normal form. -/
theorem growAll_pieces {tree : Markup} (h : tree.Regular) (rest : List Piece)
    (trees : List Markup) (pending : List (String × List Markup))
    (hrest : growAll (segments rest) = some (trees, pending)) :
    growAll (segments (tree.pieces ++ rest)) = some (consTree tree.normal trees, pending) := by
  induction h generalizing rest trees pending with
  | text value =>
    rw [pieces, normal, consTree]
    · exact growAll_text value hrest
    · simp
  | @element tag attributes children _ _ _ ih =>
    -- the closing tag is read first, then the children in front of it, then the opening tag
    have hclosing :
        growAll (segments (.closing tag :: rest)) = some ([], (tag, trees) :: pending) := by
      change (growAll (segments rest)).bind (grow (.closing tag)) = _
      rw [hrest]
      rfl
    have hchildren := growAll_piecesAll ih hclosing
    have hline := growAll_text "\n" hchildren
    have hcontent : growAll (segments ((if opensLine tag then [.char '\n'] else []) ++
        (piecesAll children ++ .closing tag :: rest))) =
          some (if tag = "g" ∨ tag = "svg" then consText "\n" (normalAll children)
            else normalAll children, (tag, trees) :: pending) := by
      by_cases hopens : opensLine tag = true
      · rw [if_pos hopens, if_pos (opensLine_iff.mp hopens)]
        exact hline
      · rw [if_neg hopens, if_neg fun h => hopens (opensLine_iff.mpr h)]
        exact hchildren
    have hfields : ((sortAttributes attributes).map writtenField).map readField =
        (attributes.insertionSort fun a b => a.1 ≤ b.1).map shownField := by
      rw [sortAttributes_eq_insertionSort, List.map_map]
      exact List.map_congr_left fun field _ => readField_writtenField field
    rw [pieces, List.cons_append, List.append_assoc, List.append_assoc, List.singleton_append]
    change (growAll (segments _)).bind (grow (.opening tag _)) = _
    rw [hcontent, Option.bind_some, grow, if_pos rfl, hfields, normal, consTree]
    simp

end

/-- The text of a tree is read back as the normal form of the tree. -/
theorem read_write {tree : Markup} (h : tree.Regular) {text : String}
    (hwrite : tree.write = .ok text) : read text = some (normalAll [tree]) := by
  have hscan := scan_eq_of_scans (scans_write h hwrite)
  have hgrow := growAll_pieces h [] [] [] rfl
  rw [List.append_nil] at hgrow
  rw [read, hscan]
  change (match growAll (segments tree.pieces) with
    | some (trees, []) => some trees
    | _ => none) = _
  rw [hgrow, normalAll, normalAll]

/-! ### Trees of texts -/

/-- A regular tree in which all attributes are texts. -/
inductive Plain : Markup → Prop
  | element {tag : String} {attributes : List (String × AttributeValue)} {children : List Markup}
    (tag_name : IsName tag)
    (fields : ∀ field ∈ attributes, IsName field.1 ∧ ∃ value, field.2 = .text value)
    (children_plain : ∀ child ∈ children, Plain child) : Plain (.element tag attributes children)
  | text (value : String) : Plain (.text value)

/-- Plain trees are regular. -/
theorem Plain.regular {tree : Markup} (h : tree.Plain) : tree.Regular := by
  induction h with
  | text value => exact .text value
  | element htag hfields _ ih =>
    exact .element htag (fun field hfield => (hfields field hfield).1) ih

theorem exists_writeAttributes {attributes : List (String × AttributeValue)}
    (h : ∀ field ∈ attributes, ∃ value, field.2 = .text value) :
    ∃ text, writeAttributes attributes = .ok text := by
  induction attributes with
  | nil => exact ⟨"", rfl⟩
  | cons field rest ih =>
    rw [List.forall_mem_cons] at h
    obtain ⟨name, value⟩ := field
    obtain ⟨⟨text, rfl⟩, hrest⟩ := h
    obtain ⟨others, hothers⟩ := ih hrest
    exact ⟨_, by rw [writeAttributes, AttributeValue.write, hothers]; rfl⟩

theorem exists_writeAll {forest : List Markup}
    (h : ∀ tree ∈ forest, ∃ text, tree.write = .ok text) :
    ∃ text, writeAll forest = .ok text := by
  induction forest with
  | nil => exact ⟨"", rfl⟩
  | cons tree forest ih =>
    rw [List.forall_mem_cons] at h
    obtain ⟨⟨first, hfirst⟩, hrest⟩ := h
    obtain ⟨others, hothers⟩ := ih hrest
    exact ⟨first ++ others, by rw [writeAll, hfirst, hothers]; rfl⟩

/-- A plain tree can always be written. -/
theorem Plain.exists_write {tree : Markup} (h : tree.Plain) : ∃ text, tree.write = .ok text := by
  induction h with
  | text value => exact ⟨escapeText value, rfl⟩
  | @element tag attributes children _ hfields _ ih =>
    have hsorted : ∀ field ∈ sortAttributes attributes, ∃ value, field.2 = .text value := by
      rw [sortAttributes_eq_insertionSort]
      exact fun field hfield => (hfields field ((List.mem_insertionSort _).mp hfield)).2
    obtain ⟨fields, hattributes⟩ := exists_writeAttributes hsorted
    obtain ⟨content, hcontent⟩ := exists_writeAll ih
    exact ⟨_, by rw [write, hattributes, hcontent]; rfl⟩

/-- Every plain tree has a text that is read back as its normal form. -/
theorem Plain.exists_write_read {tree : Markup} (h : tree.Plain) :
    ∃ text, tree.write = .ok text ∧ read text = some (normalAll [tree]) := by
  obtain ⟨text, hwrite⟩ := h.exists_write
  exact ⟨text, hwrite, read_write h.regular hwrite⟩

/-- Plain trees with the same text have the same normal form. -/
theorem Plain.normalAll_eq_of_write_eq {a b : Markup} (ha : a.Plain) (hb : b.Plain)
    (h : a.write = b.write) : normalAll [a] = normalAll [b] := by
  obtain ⟨text, hwrite, hread⟩ := ha.exists_write_read
  rw [h] at hwrite
  exact Option.some.inj (hread.symm.trans (read_write hb.regular hwrite))

/-- Plain trees are read back from their texts up to the normal form, so that the text of a tree
determines that form.  Both escapes can be undone, they are the same as one substitution after the
other, and all ampersands that they write start an entity. -/
theorem reads_back :
    (∀ tree : Markup, tree.Plain →
      ∃ text, tree.write = .ok text ∧ read text = some (normalAll [tree])) ∧
    (∀ a b : Markup, a.Plain → b.Plain → a.write = b.write → normalAll [a] = normalAll [b]) ∧
    (Function.Injective escapeAttribute ∧ Function.Injective escapeText) ∧
    (∀ text, RefersOnly (escapeAttribute text).toList ∧ RefersOnly (escapeText text).toList) ∧
    ∀ text, escapeAttribute text =
        substitute '"' "&quot;" (substitute '\'' "&apos;" (substitute '&' "&amp;" text)) ∧
      escapeText text = substitute '<' "&lt;" (escapeAttribute text) :=
  ⟨fun _ => Plain.exists_write_read, fun _ _ => Plain.normalAll_eq_of_write_eq,
    ⟨injective_escapeAttribute, injective_escapeText⟩,
    fun text => ⟨refersOnly_escapeAttribute text, refersOnly_escapeText text⟩,
    fun text => ⟨escapeAttribute_eq_substitute text, escapeText_eq_substitute text⟩⟩

/-- A figure around a group with all that has to be escaped, and two trees with the same text. -/
theorem reads_back_sample :
    (∃ text, (element "svg" [("width", .text "3")] [.element "g" [("x", .text "\"'&<"),
          ("id", .text "a b")] [.text "1<2", .text "&", .element "a" [] [.text ""]]]).write =
        .ok text ∧
      read text = some [.element "svg" [("width", .text "3")] [.text "\n",
        .element "g" [("id", .text "a b"), ("x", .text "\"'&<")]
          [.text "\n1<2&", .element "a" [] []]]]) ∧
    normalAll [.element "a" [] [.text "b", .text "c"]] =
      normalAll [.element "a" [] [.text "bc"]] := by
  have hgroup : (element "g" [("x", .text "\"'&<"), ("id", .text "a b")]
      [.text "1<2", .text "&", .element "a" [] [.text ""]]).Plain := by
    refine .element (by decide) ?_ ?_
    · simp only [List.forall_mem_cons, List.not_mem_nil, false_imp_iff, implies_true, and_true]
      exact ⟨⟨by decide, _, rfl⟩, by decide, _, rfl⟩
    · simp only [List.forall_mem_cons, List.not_mem_nil, false_imp_iff, implies_true, and_true]
      exact ⟨.text _, .text _, .element (by decide) (by simp) (by simp [Plain.text])⟩
  have hplain : (element "svg" [("width", .text "3")] [.element "g" [("x", .text "\"'&<"),
      ("id", .text "a b")] [.text "1<2", .text "&", .element "a" [] [.text ""]]]).Plain := by
    refine .element (by decide) ?_ (List.forall_mem_singleton.mpr hgroup)
    exact List.forall_mem_singleton.mpr ⟨by decide, _, rfl⟩
  have hsplit : (element "a" [] [.text "b", .text "c"]).Plain :=
    .element (by decide) (by simp) (by simp [Plain.text])
  have hjoined : (element "a" [] [.text "bc"]).Plain :=
    .element (by decide) (by simp) (by simp [Plain.text])
  obtain ⟨text, hwrite, hread⟩ := reads_back.1 _ hplain
  exact ⟨⟨text, hwrite, hread⟩, reads_back.2.1 _ _ hsplit hjoined rfl⟩

end SyntaxDiagram.Markup
