import SyntaxDiagram.Proofs.Markup.Scan

/-!
# Tags and texts

The pieces of a page are tags with text between them.  `Markup.tags` are the tags without the texts
that stand in them, and `Markup.contents` are the texts, decoded: those of titles, headings,
paragraphs and labels, where links lead, and whatever else is neither a blank line nor in a style
sheet.  Some pieces that are followed by a blank have contents of their own (`Markup.Tells`), so
that contents are told one part after the other (`Tells.append`).
-/

namespace SyntaxDiagram.Markup

/-! ### Tags -/

/-- The names of attributes with a text of the user. -/
def textAttributes : List String :=
  ["id", "xlink:href"]

/-- An attribute without its value, if that is a text of the user. -/
def withoutText (field : String × String) : String × String :=
  if field.1 ∈ textAttributes then (field.1, "") else field

/-- A tag without the texts in it. -/
def Piece.tag? : Piece → Option Piece
  | .opening tag fields => some (.opening tag (fields.map withoutText))
  | .closing tag => some (.closing tag)
  | .char _ => none

/-- The tags among some pieces, in order and without the texts in them. -/
def tags (pieces : List Piece) : List Piece :=
  pieces.filterMap Piece.tag?

/-- The tags of pieces in a row are those of each part in turn. -/
theorem tags_append (front rest : List Piece) : tags (front ++ rest) = tags front ++ tags rest :=
  List.filterMap_append

theorem tags_flatMap {γ : Type} (parts : List γ) (g : γ → List Piece) :
    tags (parts.flatMap g) = parts.flatMap fun part => tags (g part) :=
  List.filterMap_flatMap ..

/-- There are no tags among characters. -/
@[simp]
theorem tags_chars (chars : List Char) : tags (chars.map .char) = [] := by
  induction chars with
  | nil => rfl
  | cons c chars ih => exact ih

/-- The tags of an element are its own, around those of its children. -/
theorem tags_pieces_element (tag : String) (attributes : List (String × AttributeValue))
    (children : List Markup) :
    tags (Markup.element tag attributes children).pieces =
      .opening tag (((sortAttributes attributes).map writtenField).map withoutText) ::
        ((children.flatMap fun child => tags child.pieces) ++ [.closing tag]) := by
  have hline : tags (if opensLine tag then [.char '\n'] else []) = [] := by
    split <;> rfl
  rw [pieces, tags, List.filterMap_cons, Piece.tag?, ← tags, tags_append, tags_append, hline,
    piecesAll_eq_flatMap, tags_flatMap]
  rfl

/-! ### Contents -/

/-- A text as it is meant. -/
def decoded (text : List Char) : String :=
  String.ofList (unescape text)

/-- What a text of a page is. -/
inductive Content where
  | title (text : String)
  | heading (name text : String)
  | paragraph (text : String)
  | link (target : String)
  | label (text : String)
  | stray (text : String)
  deriving DecidableEq, Repr

/-- The contents of a text that has no place of its own: none, if there is nothing but line
breaks. -/
def strays (text : List Char) : List Content :=
  if text.all (· == '\n') then [] else [.stray (decoded text)]

/-- The decoded value of an attribute. -/
def fieldText (name : String) (fields : List (String × String)) : String :=
  decoded ((fields.lookup name).getD "").toList

/-- The contents of an opening tag and of the text up to the next tag.  A style sheet has none. -/
def told (tag : String) (fields : List (String × String)) (text : List Char) : List Content :=
  if tag = "title" then [.title (decoded text)]
  else if tag = "h1" then [.heading (fieldText "id" fields) (decoded text)]
  else if tag = "p" then [.paragraph (decoded text)]
  else if tag = "text" then [.label (decoded text)]
  else if tag = "a" then .link (fieldText "xlink:href" fields) :: strays text
  else if tag = "style" then []
  else strays text

section

variable (fields : List (String × String)) (text : List Char)

theorem told_title : told "title" fields text = [.title (decoded text)] := rfl

theorem told_h1 : told "h1" fields text = [.heading (fieldText "id" fields) (decoded text)] := rfl

theorem told_p : told "p" fields text = [.paragraph (decoded text)] := rfl

theorem told_text : told "text" fields text = [.label (decoded text)] := rfl

theorem told_a :
    told "a" fields text = .link (fieldText "xlink:href" fields) :: strays text := rfl

theorem told_style : told "style" fields text = [] := rfl

/-- The tags of pages and of figures that no text belongs to. -/
def plainTags : List String :=
  ["!doctype", "body", "g", "path", "rect", "svg"]

/-- A plain tag tells nothing but the text astray behind it. -/
theorem told_of_mem_plainTags {tag : String} (h : tag ∈ plainTags) :
    told tag fields text = strays text := by
  simp only [plainTags, List.mem_cons, List.not_mem_nil, or_false] at h
  rcases h with rfl | rfl | rfl | rfl | rfl | rfl <;> simp [told]

end

/-- The text up to the first tag. -/
def lead : List Piece → List Char
  | .char c :: rest => c :: lead rest
  | _ => []

/-- The contents of all tags among some pieces, each with the text up to the next tag. -/
def toldAll : List Piece → List Content
  | [] => []
  | .opening tag fields :: rest => told tag fields (lead rest) ++ toldAll rest
  | .closing _ :: rest => strays (lead rest) ++ toldAll rest
  | .char _ :: rest => toldAll rest

/-- All contents of some pieces, in order. -/
def contents (pieces : List Piece) : List Content :=
  strays (lead pieces) ++ toldAll pieces

/-- Decoding undoes the escapes of a text. -/
theorem decoded_escapeText (text : String) : decoded (escapeText text).toList = text := by
  rw [decoded, unescape_escapeText, String.ofList_toList]

/-- Decoding undoes the escapes of an attribute. -/
theorem decoded_escapeAttribute (text : String) : decoded (escapeAttribute text).toList = text := by
  rw [decoded, unescape_escapeAttribute, String.ofList_toList]

/-- The text up to the next tag goes on through characters. -/
theorem lead_chars_append (chars : List Char) (rest : List Piece) :
    lead (chars.map .char ++ rest) = chars ++ lead rest := by
  induction chars with
  | nil => rfl
  | cons c chars ih => exact congrArg (c :: ·) ih

/-- Characters tell nothing of their own: the tag before them does. -/
theorem toldAll_chars_append (chars : List Char) (rest : List Piece) :
    toldAll (chars.map .char ++ rest) = toldAll rest := by
  induction chars with
  | nil => rfl
  | cons c chars ih => exact ih

/-! ### Contents of one part after the other -/

/-- Some pieces start with a blank. -/
def BlankLead (pieces : List Piece) : Prop :=
  ∀ c ∈ lead pieces, c = '\n'

/-- Nothing is astray where only newlines stand before the next tag. -/
theorem BlankLead.strays_eq {pieces : List Piece} (h : BlankLead pieces) :
    strays (lead pieces) = [] :=
  if_pos (List.all_eq_true.mpr fun c hc => beq_iff_eq.mpr (h c hc))

/-- Some pieces have given contents, whatever follows after a blank. -/
def Tells (pieces : List Piece) (texts : List Content) : Prop :=
  ∀ rest, BlankLead rest →
    BlankLead (pieces ++ rest) ∧ toldAll (pieces ++ rest) = texts ++ toldAll rest

/-- What some pieces tell is all their contents. -/
theorem Tells.contents_eq {pieces : List Piece} {texts : List Content} (h : Tells pieces texts) :
    contents pieces = texts := by
  obtain ⟨hlead, htold⟩ := h [] fun c hc => absurd hc List.not_mem_nil
  rw [List.append_nil] at hlead htold
  rw [contents, hlead.strays_eq, htold]
  exact List.append_nil texts

theorem Tells.nil : Tells [] [] := fun _ hrest => ⟨hrest, rfl⟩

/-- Pieces in a row tell what each part tells, one after the other. -/
theorem Tells.append {front pieces : List Piece} {first texts : List Content}
    (hfront : Tells front first) (h : Tells pieces texts) :
    Tells (front ++ pieces) (first ++ texts) := by
  intro rest hrest
  obtain ⟨hlead, htold⟩ := h rest hrest
  obtain ⟨hlead', htold'⟩ := hfront (pieces ++ rest) hlead
  rw [List.append_assoc, List.append_assoc, ← htold]
  exact ⟨hlead', htold'⟩

/-- Any number of parts in a row tell what each of them tells. -/
theorem Tells.flatMap {γ : Type} {parts : List γ} {g : γ → List Piece} {f : γ → List Content}
    (h : ∀ part ∈ parts, Tells (g part) (f part)) : Tells (parts.flatMap g) (parts.flatMap f) := by
  induction parts with
  | nil => exact .nil
  | cons part rest ih =>
    rw [List.forall_mem_cons] at h
    exact h.1.append (ih h.2)

/-- A newline tells nothing. -/
theorem Tells.newline : Tells [.char '\n'] [] :=
  fun _ hrest => ⟨List.forall_mem_cons.mpr ⟨rfl, hrest⟩, rfl⟩

/-- A closing tag tells nothing. -/
theorem Tells.closing (tag : String) : Tells [.closing tag] [] := by
  intro rest hrest
  refine ⟨fun c hc => absurd hc List.not_mem_nil, ?_⟩
  rw [List.singleton_append, toldAll, hrest.strays_eq]

/-- A tag with a blank after it. -/
theorem Tells.opening {tag : String} {fields : List (String × String)} {texts : List Content}
    (h : ∀ text, strays text = [] → told tag fields text = texts) :
    Tells [.opening tag fields] texts := by
  intro rest hrest
  refine ⟨fun c hc => absurd hc List.not_mem_nil, ?_⟩
  rw [List.singleton_append, toldAll, h _ hrest.strays_eq]

/-- A plain opening tag tells nothing, whatever its attributes. -/
theorem Tells.plainOpening {tag : String} (h : tag ∈ plainTags) (fields : List (String × String)) :
    Tells [.opening tag fields] [] :=
  .opening fun _ htext => (told_of_mem_plainTags _ _ h).trans htext

/-- An element with nothing but a text in it. -/
theorem Tells.run (tag : String) (fields : List (String × String)) (text : List Char) :
    Tells ([.opening tag fields] ++ text.map .char ++ [.closing tag]) (told tag fields text) := by
  intro rest hrest
  refine ⟨fun c hc => absurd hc List.not_mem_nil, ?_⟩
  have hclosing : toldAll (.closing tag :: rest) = toldAll rest := by
    rw [toldAll, hrest.strays_eq, List.nil_append]
  rw [List.append_assoc, List.append_assoc, List.singleton_append, List.singleton_append, toldAll,
    lead_chars_append, toldAll_chars_append, hclosing]
  exact congrArg (fun text => told tag fields text ++ toldAll rest) (List.append_nil text)

/-! ### Contents of trees -/

/-- The contents of an element that holds no text itself are told by its tag and by its children. -/
theorem Tells.element {tag : String} {attributes : List (String × AttributeValue)}
    {children : List Markup} {own texts : List Content}
    (hown : ∀ text, strays text = [] →
      told tag ((sortAttributes attributes).map writtenField) text = own)
    (hchildren : Tells (children.flatMap pieces) texts) :
    Tells (Markup.element tag attributes children).pieces (own ++ texts) := by
  have hline : Tells (if opensLine tag then [.char '\n'] else []) [] := by
    split
    · exact .newline
    · exact .nil
  rw [pieces, piecesAll_eq_flatMap, ← List.append_nil texts]
  exact (Tells.opening hown).append ((hline.append hchildren).append (.closing tag))

/-- An element that no text belongs to has the contents of its children. -/
theorem Tells.plain {tag : String} (h : tag ∈ plainTags)
    {attributes : List (String × AttributeValue)} {children : List Markup} {texts : List Content}
    (hchildren : Tells (children.flatMap pieces) texts) :
    Tells (Markup.element tag attributes children).pieces texts :=
  .element (fun _ htext => (told_of_mem_plainTags _ _ h).trans htext) hchildren

/-- A plain leaf tells nothing. -/
theorem Tells.leaf {tag : String} (h : tag ∈ plainTags)
    (attributes : List (String × AttributeValue)) : Tells (Markup.leaf tag attributes).pieces [] :=
  .plain h .nil

end SyntaxDiagram.Markup
