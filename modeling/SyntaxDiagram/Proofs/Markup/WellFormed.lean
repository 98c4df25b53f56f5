import SyntaxDiagram.Proofs.Markup.Scan

/-!
# Well-formed texts

The text of a regular tree is sound (`sound_write`): its tags are nested, its attribute values have
no quotation marks, and its ampersands start entities.  Two things are left to what stands in the
tree.  An attribute value may have an angle bracket, and running text may have the mark that ends a
section of raw characters; both are found in the text iff they were in the tree
(`forall_mem_values_element`, `unbroken_text_iff`).
-/

namespace SyntaxDiagram.Markup

/-! ### Ampersands of a tree -/

/-- A text in which every ampersand starts an entity has that property from any character on. -/
theorem RefersOnly.of_cons {c : Char} {text : List Char} (h : RefersOnly (c :: text)) :
    RefersOnly text :=
  fun later hlater => h later (hlater.trans (List.suffix_cons c text))

/-- Texts with entities alone may follow one another. -/
theorem RefersOnly.append {front text : List Char} (hfront : RefersOnly front)
    (h : RefersOnly text) : RefersOnly (front ++ text) := by
  induction front with
  | nil => exact h
  | cons c front ih =>
    intro later hlater
    rcases List.suffix_cons_iff.mp hlater with heq | hlater
    · -- an entity that starts in front ends there
      obtain ⟨rfl, rfl⟩ := List.cons.inj heq
      obtain ⟨entity, hentity, hprefix⟩ := hfront front List.suffix_rfl
      exact ⟨entity, hentity, hprefix.trans (List.prefix_append ('&' :: front) text)⟩
    · exact ih hfront.of_cons later hlater

/-- A text without ampersands has only entities. -/
theorem refersOnly_of_notMem {text : List Char} (h : '&' ∉ text) : RefersOnly text :=
  fun _ hlater => absurd (hlater.subset (List.mem_cons_self ..)) h

theorem refersOnly_of_isName {name : String} (h : IsName name) : RefersOnly name.toList := by
  refine refersOnly_of_notMem fun hmem => ?_
  exact absurd (h.2 '&' hmem) (by decide)

theorem RefersOnly.toList_append {a b : String} (ha : RefersOnly a.toList)
    (hb : RefersOnly b.toList) : RefersOnly (a ++ b).toList := by
  rw [String.toList_append]
  exact ha.append hb

/-- Written attributes have entities alone. -/
theorem refersOnly_writeAttributes {attributes : List (String × AttributeValue)} {text : String}
    (hnames : ∀ field ∈ attributes, IsName field.1) (h : writeAttributes attributes = .ok text) :
    RefersOnly text.toList := by
  induction attributes generalizing text with
  | nil =>
    obtain rfl := Except.ok.inj h
    exact refersOnly_nil
  | cons field rest ih =>
    obtain ⟨name, value⟩ := field
    rw [writeAttributes, bind_eq_ok_iff] at h
    obtain ⟨written, hwritten, h⟩ := h
    obtain ⟨others, hothers, h⟩ := bind_eq_ok_iff.mp h
    obtain rfl := pure_eq_ok_iff.mp h
    obtain rfl := AttributeValue.write_eq_ok_escapeAttribute hwritten
    rw [List.forall_mem_cons] at hnames
    have hblank : RefersOnly " ".toList := refersOnly_of_notMem (by decide)
    have hequals : RefersOnly "=\"".toList := refersOnly_of_notMem (by decide)
    have hquote : RefersOnly "\"".toList := refersOnly_of_notMem (by decide)
    have hname : RefersOnly name.toList := refersOnly_of_isName hnames.1
    exact ((((hblank.toList_append hname).toList_append hequals).toList_append
      (refersOnly_escapeAttribute value.shown)).toList_append hquote).toList_append
        (ih hnames.2 hothers)

/-- Trees in a row are written with entities alone, if each of them is. -/
theorem refersOnly_writeAll {trees : List Markup} {text : String}
    (h : ∀ tree ∈ trees, ∀ text, tree.write = .ok text → RefersOnly text.toList)
    (hwrite : writeAll trees = .ok text) : RefersOnly text.toList := by
  induction trees generalizing text with
  | nil =>
    obtain rfl := Except.ok.inj hwrite
    exact refersOnly_nil
  | cons tree rest ih =>
    rw [writeAll, bind_eq_ok_iff] at hwrite
    obtain ⟨first, hfirst, hwrite⟩ := hwrite
    obtain ⟨others, hothers, hwrite⟩ := bind_eq_ok_iff.mp hwrite
    obtain rfl := pure_eq_ok_iff.mp hwrite
    rw [List.forall_mem_cons] at h
    exact (h.1 first hfirst).toList_append (ih h.2 hothers)

/-- A regular tree is written with entities alone. -/
theorem refersOnly_write {tree : Markup} (h : tree.Regular) {text : String}
    (hwrite : tree.write = .ok text) : RefersOnly text.toList := by
  induction h generalizing text with
  | text value =>
    obtain rfl := Except.ok.inj hwrite
    exact refersOnly_escapeText value
  | @element tag attributes children htag hnames _ ih =>
    rw [write, bind_eq_ok_iff] at hwrite
    obtain ⟨fields, hfields, hwrite⟩ := hwrite
    obtain ⟨content, hcontent, hwrite⟩ := bind_eq_ok_iff.mp hwrite
    obtain rfl := pure_eq_ok_iff.mp hwrite
    have hopen : RefersOnly "<".toList := refersOnly_of_notMem (by decide)
    have hslash : RefersOnly "</".toList := refersOnly_of_notMem (by decide)
    have hclose : RefersOnly ">".toList := refersOnly_of_notMem (by decide)
    have hline : RefersOnly (if opensLine tag then "\n" else "").toList := by
      split <;> exact refersOnly_of_notMem (by decide)
    have hname : RefersOnly tag.toList := refersOnly_of_isName htag
    have hattributes := refersOnly_writeAttributes (isName_of_mem_sortAttributes hnames) hfields
    have hchildren := refersOnly_writeAll (fun child hchild text => ih child hchild) hcontent
    exact (((((((hopen.toList_append hname).toList_append hattributes).toList_append
      hclose).toList_append hline).toList_append hchildren).toList_append hslash).toList_append
        hname).toList_append hclose

/-! ### Attribute values -/

/-- The values of all attributes, as they are written. -/
def values (pieces : List Piece) : List String :=
  (collect (fun _ fields => some (fields.map Prod.snd)) pieces).flatten

/-- The attribute values of an element are its own and those of its children. -/
theorem forall_mem_values_element {P : String → Prop} {tag : String}
    {attributes : List (String × AttributeValue)} {children : List Markup} :
    (∀ value ∈ values (Markup.element tag attributes children).pieces, P value) ↔
      (∀ field ∈ attributes, P (escapeAttribute field.2.shown)) ∧
        ∀ child ∈ children, ∀ value ∈ values child.pieces, P value := by
  have hfields : (∀ value ∈ ((sortAttributes attributes).map writtenField).map Prod.snd, P value) ↔
      ∀ field ∈ attributes, P (escapeAttribute field.2.shown) := by
    rw [List.map_map, List.forall_mem_map, sortAttributes_eq_insertionSort]
    simp only [List.mem_insertionSort]
    rfl
  have hvalues : values (Markup.element tag attributes children).pieces =
      ((sortAttributes attributes).map writtenField).map Prod.snd ++
        children.flatMap fun child => values child.pieces := by
    rw [values, collect_pieces_element, List.flatten_append, List.flatten_eq_flatMap,
      List.flatten_eq_flatMap, List.flatMap_assoc]
    simp only [values, Option.toList_some, List.flatMap_id, List.flatten_cons, List.flatten_nil,
      List.append_nil]
  rw [hvalues, List.forall_mem_append, hfields, List.forall_mem_flatMap]

/-! ### Nesting -/

/-- Whether every tag is opened and closed in turn, given the open tags, innermost first. -/
def nests : List String → List Piece → Bool
  | pending, [] => pending.isEmpty
  | pending, .opening tag _ :: rest => nests (tag :: pending) rest
  | tag :: pending, .closing name :: rest => tag == name && nests pending rest
  | [], .closing _ :: _ => false
  | pending, .char _ :: rest => nests pending rest

/-- Characters leave the open tags as they are. -/
theorem nests_chars (pending : List String) (chars : List Char) (rest : List Piece) :
    nests pending (chars.map .char ++ rest) = nests pending rest := by
  induction chars with
  | nil => rfl
  | cons c chars ih =>
    rw [List.map_cons, List.cons_append, ← ih]
    cases pending <;> rfl

/-- Trees in a row leave the open tags as they are, if each of them does. -/
theorem nests_piecesAll {trees : List Markup}
    (h : ∀ tree ∈ trees, ∀ pending rest, nests pending (tree.pieces ++ rest) = nests pending rest)
    (pending : List String) (rest : List Piece) :
    nests pending (piecesAll trees ++ rest) = nests pending rest := by
  induction trees with
  | nil => rfl
  | cons tree trees ih =>
    rw [List.forall_mem_cons] at h
    rw [piecesAll, List.append_assoc, h.1, ih h.2]

/-- The pieces of a regular tree close every tag they open, whatever is open around them. -/
theorem nests_pieces {tree : Markup} (h : tree.Regular) (pending : List String)
    (rest : List Piece) : nests pending (tree.pieces ++ rest) = nests pending rest := by
  induction h generalizing pending rest with
  | text value => exact nests_chars pending _ rest
  | @element tag attributes children _ _ _ ih =>
    have hline (rest : List Piece) : nests (tag :: pending)
        ((if opensLine tag then [.char '\n'] else []) ++ rest) = nests (tag :: pending) rest := by
      split <;> rfl
    rw [pieces, List.cons_append, nests, List.append_assoc, List.append_assoc, hline,
      nests_piecesAll ih, List.singleton_append, nests, beq_self_eq_true, Bool.true_and]

/-! ### Sound texts -/

/-- The pieces of a text in which tags are nested, no attribute value has a quotation mark, no
character between tags is an angle bracket, and every ampersand starts an entity. -/
structure Sound (text : String) (pieces : List Piece) : Prop where
  scan_eq : scan text = some pieces
  nested : nests [] pieces = true
  values_quoted : ∀ value ∈ values pieces, '"' ∉ value.toList
  content_closed : .char '<' ∉ pieces
  refersOnly : RefersOnly text.toList

/-- No attribute value of a regular tree is written with a quotation mark. -/
theorem values_quoted_pieces {tree : Markup} (h : tree.Regular) :
    ∀ value ∈ values tree.pieces, '"' ∉ value.toList := by
  induction h with
  | text value =>
    rw [values, pieces, collect_chars]
    exact fun _ hvalue => absurd hvalue List.not_mem_nil
  | element _ _ _ ih =>
    rw [forall_mem_values_element]
    exact ⟨fun field _ => quote_notMem_escapeAttribute field.2.shown, ih⟩

/-- No character between the tags of a regular tree is an angle bracket. -/
theorem angle_notMem_pieces {tree : Markup} (h : tree.Regular) : .char '<' ∉ tree.pieces := by
  induction h with
  | text value =>
    rw [pieces, List.mem_map]
    rintro ⟨c, hc, heq⟩
    obtain rfl := Piece.char.inj heq
    exact angle_notMem_escapeText value hc
  | @element tag attributes children _ _ _ ih =>
    have hall : .char '<' ∉ piecesAll children := by
      rw [piecesAll_eq_flatMap, List.mem_flatMap]
      rintro ⟨child, hchild, hmem⟩
      exact ih child hchild hmem
    rw [pieces]
    split <;> simp [hall]

/-- The text of a regular tree is sound. -/
theorem sound_write {tree : Markup} (h : tree.Regular) {text : String}
    (hwrite : tree.write = .ok text) : Sound text tree.pieces where
  scan_eq := scan_eq_of_scans (scans_write h hwrite)
  nested := by
    have hnests := nests_pieces h [] []
    rw [List.append_nil] at hnests
    rw [hnests, nests, List.isEmpty_nil]
  values_quoted := values_quoted_pieces h
  content_closed := angle_notMem_pieces h
  refersOnly := refersOnly_write h hwrite

/-! ### The end of raw characters -/

/-- The mark that ends a section of raw characters. -/
def rawEnd : List Char :=
  [']', ']', '>']

/-- Nowhere between two tags is the mark that ends a section of raw characters. -/
def Unbroken (pieces : List Piece) : Prop :=
  ¬ rawEnd.map .char <:+: pieces

/-- What does not have an element lies wholly on one side of it. -/
theorem infix_append_cons_iff {α : Type} {l front rest : List α} {a : α} (ha : a ∉ l) :
    l <:+: front ++ a :: rest ↔ l <:+: front ∨ l <:+: rest := by
  constructor
  · rw [List.infix_append_iff, List.infix_cons_iff]
    rintro (h | (h | h) | ⟨left, right, rfl, hleft, hright⟩)
    · exact Or.inl h
    · cases l with
      | nil => exact Or.inl List.nil_infix
      | cons b l =>
        obtain ⟨rfl, -⟩ := List.cons_prefix_cons.mp h
        exact absurd (List.mem_cons_self ..) ha
    · exact Or.inr h
    · cases right with
      | nil =>
        rw [List.append_nil]
        exact Or.inl hleft.isInfix
      | cons b right =>
        obtain ⟨rfl, -⟩ := List.cons_prefix_cons.mp hright
        exact absurd (List.mem_append_right _ (List.mem_cons_self ..)) ha
  · rintro (h | h)
    · exact List.infix_append_of_infix_left h
    · exact List.infix_append_of_infix_right (List.infix_cons h)

/-- A piece that is no part of the mark separates what is in front of it from the rest. -/
theorem unbroken_append_cons_iff {front rest : List Piece} {piece : Piece}
    (h : piece ∉ rawEnd.map .char) :
    Unbroken (front ++ piece :: rest) ↔ Unbroken front ∧ Unbroken rest := by
  rw [Unbroken, infix_append_cons_iff h, not_or]
  rfl

theorem unbroken_nil : Unbroken [] := by
  rw [Unbroken, List.infix_nil]
  decide

/-- A piece that is no part of the mark may go first. -/
theorem unbroken_cons_iff {piece : Piece} {rest : List Piece} (h : piece ∉ rawEnd.map .char) :
    Unbroken (piece :: rest) ↔ Unbroken rest := by
  have hiff : Unbroken ([] ++ piece :: rest) ↔ Unbroken [] ∧ Unbroken rest :=
    unbroken_append_cons_iff h
  rw [List.nil_append] at hiff
  rw [hiff, and_iff_right unbroken_nil]

theorem opening_notMem_rawEnd (tag : String) (fields : List (String × String)) :
    Piece.opening tag fields ∉ rawEnd.map Piece.char := by
  simp

theorem closing_notMem_rawEnd (tag : String) : Piece.closing tag ∉ rawEnd.map Piece.char := by
  simp

/-- The tags of an element make no difference to the mark. -/
theorem unbroken_element_iff_piecesAll {tag : String}
    {attributes : List (String × AttributeValue)} {children : List Markup} :
    Unbroken (Markup.element tag attributes children).pieces ↔ Unbroken (piecesAll children) := by
  have hline : Unbroken ((if opensLine tag then [.char '\n'] else []) ++ piecesAll children) ↔
      Unbroken (piecesAll children) := by
    split
    · exact unbroken_cons_iff (by decide)
    · rfl
  rw [pieces, unbroken_cons_iff (opening_notMem_rawEnd _ _),
    unbroken_append_cons_iff (closing_notMem_rawEnd tag), hline, and_iff_left unbroken_nil]

/-- Whether a tree is an element. -/
def IsElement (tree : Markup) : Prop :=
  ∃ tag attributes children, tree = .element tag attributes children

/-- Elements in a row have the mark iff one of them has, as it cannot reach over a tag. -/
theorem unbroken_piecesAll_iff {trees : List Markup} (h : ∀ tree ∈ trees, tree.IsElement) :
    Unbroken (piecesAll trees) ↔ ∀ tree ∈ trees, Unbroken tree.pieces := by
  induction trees with
  | nil => exact iff_of_true unbroken_nil fun _ htree => absurd htree List.not_mem_nil
  | cons tree trees ih =>
    rw [List.forall_mem_cons] at h
    obtain ⟨⟨tag, attributes, children, rfl⟩, htrees⟩ := h
    -- the closing tag separates the first element from the rest
    have hsplit (front rest : List Piece) : Unbroken (front ++ [.closing tag] ++ rest) ↔
        Unbroken (front ++ [.closing tag]) ∧ Unbroken rest := by
      rw [List.append_assoc, List.singleton_append,
        unbroken_append_cons_iff (closing_notMem_rawEnd tag),
        unbroken_append_cons_iff (closing_notMem_rawEnd tag), and_iff_left unbroken_nil]
    rw [List.forall_mem_cons, piecesAll, ← ih htrees, pieces, ← List.cons_append, hsplit]

/-- An element of elements has the mark in its text iff one of them has. -/
theorem unbroken_element_iff {tag : String} {attributes : List (String × AttributeValue)}
    {children : List Markup} (h : ∀ child ∈ children, child.IsElement) :
    Unbroken (Markup.element tag attributes children).pieces ↔
      ∀ child ∈ children, Unbroken child.pieces := by
  rw [unbroken_element_iff_piecesAll, unbroken_piecesAll_iff h]

/-- A text has the mark when it is written iff it has the mark itself. -/
theorem unbroken_text_iff {tag : String} {attributes : List (String × AttributeValue)}
    {value : String} :
    Unbroken (Markup.withText tag attributes value).pieces ↔ ¬ rawEnd <:+: value.toList := by
  have hplain : ∀ c ∈ rawEnd, escapeTextChar c = [c] := by
    rw [rawEnd, List.forall_mem_cons, List.forall_mem_cons, List.forall_mem_singleton]
    exact ⟨rfl, rfl, rfl⟩
  have hescape : rawEnd <:+: (escapeText value).toList ↔ rawEnd <:+: value.toList :=
    infix_escapeText_iff hplain (by decide) value
  have hmap : rawEnd.map .char <:+: (escapeText value).toList.map Piece.char ↔
      rawEnd <:+: (escapeText value).toList := by
    rw [List.infix_map_iff]
    constructor
    · rintro ⟨l, hl, heq⟩
      rwa [List.map_injective_iff.mpr (fun a b => Piece.char.inj) heq]
    · exact fun h => ⟨rawEnd, h, rfl⟩
  rw [withText, unbroken_element_iff_piecesAll]
  split
  · rename_i hempty
    obtain rfl : value = "" := by simpa using hempty
    exact iff_of_true unbroken_nil (by decide)
  · rw [piecesAll, piecesAll, List.append_nil, pieces, Unbroken, hmap, hescape]

end SyntaxDiagram.Markup
