import SyntaxDiagram.Markup.Basic
import SyntaxDiagram.Proofs.Markup.Escape
import SyntaxDiagram.Proofs.Number
import Mathlib.Data.List.Sort
import Mathlib.Data.String.Basic

/-!
# Scanning markup

A scanner that cuts a text into tags and characters: an opening angle bracket starts a tag, and an
attribute value ends at the next quotation mark.  It goes through the text once, so that what it
finds in one part after the other it finds in the whole (`Scans.append`).  The text of a tree is
scanned as the `pieces` of that tree (`scans_write`).
-/

namespace SyntaxDiagram

namespace Markup

/-! ### The scanner -/

/-- A part of a text: a tag, or a character between tags. Attribute values and characters are as
they are written, with entities. -/
inductive Piece where
  | opening (tag : String) (attributes : List (String × String))
  | closing (tag : String)
  | char (c : Char)
  deriving DecidableEq, Repr

/-- What a position in a text is part of, with what has been read of that. -/
inductive Place where
  | content
  | tagStart
  | openingName (name : List Char)
  | closingName (name : List Char)
  | attributeName (tag : String) (fields : List (String × String)) (name : List Char)
  | valueStart (tag : String) (fields : List (String × String)) (name : String)
  | value (tag : String) (fields : List (String × String)) (name : String) (value : List Char)
  | fieldEnd (tag : String) (fields : List (String × String))
  deriving DecidableEq, Repr

/-- The characters of names: all but blanks and those with a meaning in a tag. -/
def isNameChar (c : Char) : Bool :=
  !" \n\t\r=<>/\"'&".toList.contains c

/-- A character after the name of a tag or after an attribute. -/
def stepField (tag : String) (fields : List (String × String)) (c : Char) :
    Option (List Piece × Place) :=
  if c = ' ' then some ([], .attributeName tag fields [])
  else if c = '>' then some ([.opening tag fields], .content)
  else none

/-- The pieces that end with a character, and the place after it. An attribute may go without a
value. -/
def step : Place → Char → Option (List Piece × Place)
  | .content, c => if c = '<' then some ([], .tagStart) else some ([.char c], .content)
  | .tagStart, c =>
    if c = '/' then some ([], .closingName [])
    else if isNameChar c then some ([], .openingName [c])
    else none
  | .openingName name, c =>
    if isNameChar c then some ([], .openingName (name ++ [c]))
    else stepField (String.ofList name) [] c
  | .closingName name, c =>
    if isNameChar c then some ([], .closingName (name ++ [c]))
    else if c = '>' then some ([.closing (String.ofList name)], .content)
    else none
  | .attributeName tag fields name, c =>
    if isNameChar c then some ([], .attributeName tag fields (name ++ [c]))
    else if c = '=' then some ([], .valueStart tag fields (String.ofList name))
    else stepField tag (fields ++ [(String.ofList name, "")]) c
  | .valueStart tag fields name, c => if c = '"' then some ([], .value tag fields name []) else none
  | .value tag fields name value, c =>
    if c = '"' then some ([], .fieldEnd tag (fields ++ [(name, String.ofList value)]))
    else some ([], .value tag fields name (value ++ [c]))
  | .fieldEnd tag fields, c => stepField tag fields c

/-- The pieces that end in a text, and the place after it. -/
def run : Place → List Char → Option (List Piece × Place)
  | place, [] => some ([], place)
  | place, c :: rest => do
    let (pieces, next) ← step place c
    let (others, last) ← run next rest
    return (pieces ++ others, last)

/-- The pieces of a whole text. Every tag in it has to end. -/
def scan (text : String) : Option (List Piece) :=
  match run .content text.toList with
  | some (pieces, .content) => some pieces
  | _ => none

/-! ### Scanning one part after the other -/

/-- From one place to another, a text is cut into some pieces. -/
def Scans (place : Place) (text : List Char) (pieces : List Piece) (last : Place) : Prop :=
  run place text = some (pieces, last)

variable {place next last : Place} {text rest : List Char} {pieces others : List Piece} {c : Char}

/-- A text is scanned when it is read from content to content. -/
theorem scan_eq_of_scans {text : String} (h : Scans .content text.toList pieces .content) :
    scan text = some pieces := by
  rw [scan, h]

theorem Scans.nil : Scans place [] [] place := rfl

theorem Scans.cons (hstep : step place c = some (pieces, next))
    (hrest : Scans next rest others last) : Scans place (c :: rest) (pieces ++ others) last := by
  rw [Scans, run, hstep]
  change (run next rest).bind _ = _
  rw [hrest]
  rfl

/-- A character that ends no piece. -/
theorem Scans.silent (hstep : step place c = some ([], next))
    (hrest : Scans next rest others last) : Scans place (c :: rest) others last :=
  hrest.cons hstep

/-- Texts are scanned one after the other, each from the place where the one before it ends. -/
theorem Scans.append (h : Scans place text pieces next) (hrest : Scans next rest others last) :
    Scans place (text ++ rest) (pieces ++ others) last := by
  induction text generalizing place pieces with
  | nil =>
    obtain ⟨rfl, rfl⟩ := Prod.mk.inj (Option.some.inj h)
    exact hrest
  | cons c text ih =>
    -- the first step is the same
    obtain ⟨⟨first, middle⟩, hstep, h⟩ := Option.bind_eq_some_iff.mp h
    obtain ⟨⟨tail, last'⟩, htail, h⟩ := Option.bind_eq_some_iff.mp h
    obtain ⟨rfl, rfl⟩ := Prod.mk.inj (Option.some.inj h)
    rw [List.append_assoc]
    exact (ih htail).cons hstep

/-- A text that is collected character by character. -/
theorem scans_collect {place : List Char → Place} {P : Char → Prop}
    (hstep : ∀ done c, P c → step (place done) c = some ([], place (done ++ [c])))
    (h : ∀ c ∈ text, P c) (done : List Char) :
    Scans (place done) text [] (place (done ++ text)) := by
  induction text generalizing done with
  | nil =>
    rw [List.append_nil]
    exact Scans.nil
  | cons c text ih =>
    rw [List.forall_mem_cons] at h
    have hrest := ih h.2 (done ++ [c])
    rw [List.append_assoc] at hrest
    exact hrest.silent (hstep done c h.1)

/-- Between tags, every character is a piece. -/
theorem scans_content (h : '<' ∉ text) : Scans .content text (text.map .char) .content := by
  induction text with
  | nil => exact Scans.nil
  | cons c text ih =>
    rw [List.mem_cons, not_or] at h
    have hstep : step .content c = some ([.char c], .content) := by
      rw [step, if_neg (Ne.symm h.1)]
    exact (ih h.2).cons hstep

/-! ### Tags -/

/-- A name of a tag or of an attribute. A word of letters, digits, dashes and colons is one. -/
def IsName (name : String) : Prop :=
  name.toList ≠ [] ∧ ∀ c ∈ name.toList, isNameChar c = true

instance (name : String) : Decidable (IsName name) :=
  -- only the characters of the name are looked at
  @instDecidableAnd _ _ inferInstance (List.decidableBAll _ _)

/-- A closing tag is read as such. -/
theorem scans_closing {tag : String} (htag : IsName tag) :
    Scans .content ("</" ++ tag ++ ">").toList [.closing tag] .content := by
  have hname : Scans (.closingName []) tag.toList [] (.closingName tag.toList) :=
    scans_collect (fun _ _ hc => by rw [step, if_pos hc]) htag.2 []
  have hlast : step (.closingName tag.toList) '>' = some ([.closing tag], .content) := by
    rw [step, if_neg (by decide), if_pos rfl, String.ofList_toList]
  have htext : ("</" ++ tag ++ ">").toList = '<' :: '/' :: (tag.toList ++ ['>']) := by
    simp only [String.toList_append]
    rfl
  rw [htext]
  exact ((hname.append (Scans.nil.cons hlast)).silent rfl).silent rfl

/-- A text without quotation marks is part of an attribute value. -/
theorem scans_value {tag name value : String} {fields : List (String × String)}
    (h : '"' ∉ value.toList) :
    Scans (.value tag fields name []) value.toList [] (.value tag fields name value.toList) :=
  scans_collect (P := (· ≠ '"')) (fun _ _ hc => by rw [step, if_neg hc])
    (fun c hc heq => h (heq ▸ hc)) []

/-- A written attribute is added to those of the tag it stands in. -/
theorem scans_attribute {tag name value : String} {fields : List (String × String)}
    (hname : IsName name) (hvalue : '"' ∉ value.toList) :
    Scans (.fieldEnd tag fields) (" " ++ name ++ "=\"" ++ value ++ "\"").toList []
      (.fieldEnd tag (fields ++ [(name, value)])) := by
  have hscan : Scans (.attributeName tag fields []) name.toList []
      (.attributeName tag fields name.toList) :=
    scans_collect (fun _ _ hc => by rw [step, if_pos hc]) hname.2 []
  have hequals : step (.attributeName tag fields name.toList) '=' =
      some ([], .valueStart tag fields name) := by
    rw [step, if_neg (by decide), if_pos rfl, String.ofList_toList]
  have hquote : step (.value tag fields name value.toList) '"' =
      some ([], .fieldEnd tag (fields ++ [(name, value)])) := by
    rw [step, if_pos rfl, String.ofList_toList]
  have htext : (" " ++ name ++ "=\"" ++ value ++ "\"").toList =
      ' ' :: (name.toList ++ '=' :: '"' :: (value.toList ++ ['"'])) := by
    simp only [String.toList_append, List.append_assoc]
    rfl
  rw [htext]
  have hstart : step (.valueStart tag fields name) '"' = some ([], .value tag fields name []) := rfl
  have hquoted := ((scans_value hvalue).append (Scans.nil.silent hquote)).silent hstart
  exact (hscan.append (hquoted.silent hequals)).silent rfl

end Markup

/-! ### Attribute values -/

namespace AttributeValue

/-- The text that an attribute value stands for: itself, or the text of a number. -/
def shown : AttributeValue → String
  | .text value => value
  | .bool value => (write (.bool value)).toOption.getD ""
  | .number value => (write (.number value)).toOption.getD ""

/-- Characters of numbers are not escaped. -/
theorem escapeAttribute_eq_self {text : String} (h : ∀ c ∈ text.toList, isNumeral c = true) :
    Markup.escapeAttribute text = text := by
  have hchar : ∀ c ∈ text.toList, Markup.escapeAttributeChar c = [c] := by
    intro c hc
    have hnumeral := h c hc
    unfold Markup.escapeAttributeChar
    split
    · exact absurd hnumeral (by decide)
    · exact absurd hnumeral (by decide)
    · exact absurd hnumeral (by decide)
    · rfl
  rw [Markup.escapeAttribute, List.flatMap_congr hchar, List.flatMap_singleton',
    String.ofList_toList]

theorem isNumeral_of_mem_briefNumber {number : Number} {text : String}
    (h : briefNumber number = .ok text) : ∀ c ∈ text.toList, isNumeral c = true :=
  fun _ => number.isNumeral_of_mem_brief (mapError_eq_ok_iff.mp h)

/-- What is written of a value is the text that it stands for, escaped. -/
theorem write_eq_ok_escapeAttribute {value : AttributeValue} {text : String}
    (h : value.write = .ok text) : text = Markup.escapeAttribute value.shown := by
  cases value with
  | text value => exact (Except.ok.inj h).symm
  | bool value =>
    have hshown : (bool value).shown = text := by rw [shown, h]; rfl
    rw [hshown, escapeAttribute_eq_self (isNumeral_of_mem_briefNumber h)]
  | number value =>
    have hshown : (number value).shown = text := by rw [shown, h]; rfl
    rw [hshown, escapeAttribute_eq_self (isNumeral_of_mem_briefNumber h)]

end AttributeValue

namespace Markup

/-! ### The order of attributes -/

/-- Putting an attribute in its place is the insertion of an insertion sort. -/
theorem insertAttribute_eq_orderedInsert (field : String × AttributeValue)
    (fields : List (String × AttributeValue)) :
    insertAttribute field fields = fields.orderedInsert (fun a b => a.1 ≤ b.1) field := by
  induction fields with
  | nil => rfl
  | cons first rest ih =>
    rw [insertAttribute, List.orderedInsert, ih]
    by_cases h : first.1 < field.1
    · rw [if_pos h, if_neg (not_le.mpr h)]
    · rw [if_neg h, if_pos (not_lt.mp h)]

/-- Attributes are sorted by their names. -/
theorem sortAttributes_eq_insertionSort (attributes : List (String × AttributeValue)) :
    sortAttributes attributes = attributes.insertionSort fun a b => a.1 ≤ b.1 := by
  induction attributes with
  | nil => rfl
  | cons field rest ih =>
    rw [sortAttributes, List.foldr_cons, ← sortAttributes, ih, insertAttribute_eq_orderedInsert,
      List.insertionSort]
    rfl

/-- Sorting attributes adds no name. -/
theorem isName_of_mem_sortAttributes {attributes : List (String × AttributeValue)}
    (h : ∀ field ∈ attributes, IsName field.1) :
    ∀ field ∈ sortAttributes attributes, IsName field.1 := by
  rw [sortAttributes_eq_insertionSort]
  exact fun field hfield => h field ((List.mem_insertionSort _).mp hfield)

/-! ### Trees -/

/-- A tree without style sheets, in which all names are proper. -/
inductive Regular : Markup → Prop
  | element {tag : String} {attributes : List (String × AttributeValue)} {children : List Markup}
    (tag_name : IsName tag) (names : ∀ field ∈ attributes, IsName field.1)
    (children_regular : ∀ child ∈ children, Regular child) :
    Regular (.element tag attributes children)
  | text (value : String) : Regular (.text value)

/-- An element is regular if its names are, which can be listed. -/
theorem Regular.of_names {tag : String} {attributes : List (String × AttributeValue)}
    {children : List Markup} (names : List String) (hmap : attributes.map Prod.fst = names)
    (hnames : ∀ name ∈ tag :: names, IsName name) (hchildren : ∀ child ∈ children, child.Regular) :
    (Markup.element tag attributes children).Regular := by
  rw [List.forall_mem_cons] at hnames
  refine .element hnames.1 (fun field hfield => hnames.2 _ ?_) hchildren
  rw [← hmap]
  exact List.mem_map_of_mem hfield

/-- A leaf is regular when its tag and the names of its attributes are names. -/
theorem Regular.leaf_of_names {tag : String} {attributes : List (String × AttributeValue)}
    (names : List String) (hmap : attributes.map Prod.fst = names)
    (hnames : ∀ name ∈ tag :: names, IsName name) : (leaf tag attributes).Regular :=
  .of_names names hmap hnames fun _ hchild => absurd hchild List.not_mem_nil

/-- An attribute as it is written. -/
def writtenField (field : String × AttributeValue) : String × String :=
  (field.1, escapeAttribute field.2.shown)

mutual

/-- The pieces that the text of a tree is made of. A style sheet is not read. -/
def pieces : Markup → List Piece
  | .element tag attributes children =>
    .opening tag ((sortAttributes attributes).map writtenField) ::
      ((if opensLine tag then [.char '\n'] else []) ++ piecesAll children ++ [.closing tag])
  | .text value => (escapeText value).toList.map .char
  | .style _ => []

/-- The pieces of some trees in a row. -/
def piecesAll : List Markup → List Piece
  | [] => []
  | child :: rest => pieces child ++ piecesAll rest

end

theorem piecesAll_eq_flatMap (trees : List Markup) :
    piecesAll trees = trees.flatMap Markup.pieces := by
  induction trees with
  | nil => rfl
  | cons tree rest ih => rw [piecesAll, ih, List.flatMap_cons]

/-- Written attributes are read back in the order they are written in. -/
theorem scans_writeAttributes {tag text : String} {attributes : List (String × AttributeValue)}
    (hnames : ∀ field ∈ attributes, IsName field.1) (h : writeAttributes attributes = .ok text)
    (fields : List (String × String)) :
    Scans (.fieldEnd tag fields) text.toList []
      (.fieldEnd tag (fields ++ attributes.map writtenField)) := by
  induction attributes generalizing fields text with
  | nil =>
    obtain rfl := Except.ok.inj h
    rw [List.map_nil, List.append_nil]
    exact Scans.nil
  | cons field rest ih =>
    obtain ⟨name, value⟩ := field
    rw [writeAttributes, bind_eq_ok_iff] at h
    obtain ⟨written, hwritten, h⟩ := h
    obtain ⟨others, hothers, h⟩ := bind_eq_ok_iff.mp h
    obtain rfl := pure_eq_ok_iff.mp h
    obtain rfl := AttributeValue.write_eq_ok_escapeAttribute hwritten
    rw [List.forall_mem_cons] at hnames
    have hfirst : Scans (.fieldEnd tag fields) _ [] (.fieldEnd tag (fields ++ [_])) :=
      scans_attribute hnames.1 (quote_notMem_escapeAttribute value.shown)
    have hrest := ih hnames.2 hothers (fields ++ [(name, escapeAttribute value.shown)])
    rw [List.append_assoc] at hrest
    rw [String.toList_append]
    exact hfirst.append hrest

/-- After the name of a tag the scanner goes on as after an attribute. -/
theorem scans_openingName_iff {name : List Char} (hc : isNameChar c = false) :
    Scans (.openingName name) (c :: rest) others last ↔
      Scans (.fieldEnd (String.ofList name) []) (c :: rest) others last := by
  simp only [Scans, run, step, hc, Bool.false_eq_true, if_false]

/-- What follows the name of a tag starts with a blank or is the end of the tag. -/
theorem scans_fields {tag text : String} {attributes : List (String × AttributeValue)}
    (hnames : ∀ field ∈ attributes, IsName field.1) (h : writeAttributes attributes = .ok text) :
    Scans (.openingName tag.toList) (text.toList ++ ['>'])
      [.opening tag (attributes.map writtenField)] .content := by
  have hscan : Scans (.fieldEnd (String.ofList tag.toList) []) (text.toList ++ ['>']) _ _ :=
    (scans_writeAttributes hnames h []).append (Scans.nil.cons rfl)
  rw [List.nil_append, List.nil_append, String.ofList_toList] at hscan
  cases attributes with
  | nil =>
    obtain rfl := Except.ok.inj h
    refine (scans_openingName_iff (c := '>') (by decide)).mpr ?_
    rw [String.ofList_toList]
    exact hscan
  | cons field others =>
    obtain ⟨fieldName, value⟩ := field
    rw [writeAttributes, bind_eq_ok_iff] at h
    obtain ⟨written, -, h⟩ := h
    obtain ⟨others, -, h⟩ := bind_eq_ok_iff.mp h
    obtain rfl := pure_eq_ok_iff.mp h
    have htext : (" " ++ fieldName ++ "=\"" ++ written ++ "\"" ++ others).toList ++ ['>'] =
        ' ' :: (fieldName ++ "=\"" ++ written ++ "\"" ++ others ++ ">").toList := by
      simp only [String.toList_append, List.append_assoc]
      rfl
    rw [htext] at hscan ⊢
    refine (scans_openingName_iff (c := ' ') (by decide)).mpr ?_
    rw [String.ofList_toList]
    exact hscan

/-- A written opening tag is read back with its attributes. -/
theorem scans_opening {tag text : String} {attributes : List (String × AttributeValue)}
    (htag : IsName tag) (hnames : ∀ field ∈ attributes, IsName field.1)
    (h : writeAttributes attributes = .ok text) :
    Scans .content ("<" ++ tag ++ text ++ ">").toList
      [.opening tag (attributes.map writtenField)] .content := by
  obtain ⟨first, name, hname⟩ := List.exists_cons_of_ne_nil htag.1
  have hchars := htag.2
  rw [hname, List.forall_mem_cons] at hchars
  have hslash : first ≠ '/' := by
    rintro rfl
    exact absurd hchars.1 (by decide)
  have hstart : step .tagStart first = some ([], .openingName [first]) := by
    rw [step, if_neg hslash, if_pos hchars.1]
  have hcollect : Scans (.openingName [first]) name [] (.openingName tag.toList) := by
    rw [hname]
    exact scans_collect (fun _ _ hc => by rw [step, if_pos hc]) hchars.2 [first]
  have htext : ("<" ++ tag ++ text ++ ">").toList =
      '<' :: first :: (name ++ (text.toList ++ ['>'])) := by
    rw [String.toList_append, String.toList_append, String.toList_append, hname]
    simp only [List.append_assoc]
    rfl
  rw [htext]
  exact ((hcollect.append (scans_fields hnames h)).silent hstart).silent rfl

/-- Trees written one after the other are scanned as their pieces, if each of them is. -/
theorem scans_writeAll {trees : List Markup} {text : String}
    (h : ∀ tree ∈ trees, ∀ text, tree.write = .ok text →
      Scans .content text.toList tree.pieces .content)
    (hwrite : writeAll trees = .ok text) :
    Scans .content text.toList (piecesAll trees) .content := by
  induction trees generalizing text with
  | nil =>
    obtain rfl := Except.ok.inj hwrite
    exact Scans.nil
  | cons tree rest ih =>
    rw [writeAll, bind_eq_ok_iff] at hwrite
    obtain ⟨first, hfirst, hwrite⟩ := hwrite
    obtain ⟨others, hothers, hwrite⟩ := bind_eq_ok_iff.mp hwrite
    obtain rfl := pure_eq_ok_iff.mp hwrite
    rw [List.forall_mem_cons] at h
    rw [String.toList_append, piecesAll]
    exact (h.1 first hfirst).append (ih h.2 hothers)

/-- The text of a tree is scanned as the pieces of the tree. -/
theorem scans_write {tree : Markup} (h : tree.Regular) {text : String}
    (hwrite : tree.write = .ok text) : Scans .content text.toList tree.pieces .content := by
  induction h generalizing text with
  | text value =>
    obtain rfl := Except.ok.inj hwrite
    exact scans_content (angle_notMem_escapeText value)
  | @element tag attributes children htag hnames _ ih =>
    rw [write, bind_eq_ok_iff] at hwrite
    obtain ⟨fields, hfields, hwrite⟩ := hwrite
    obtain ⟨content, hcontent, hwrite⟩ := bind_eq_ok_iff.mp hwrite
    obtain rfl := pure_eq_ok_iff.mp hwrite
    have hsorted := isName_of_mem_sortAttributes hnames
    -- the newline that follows the opening tag of some elements is content
    have hline : Scans .content (if opensLine tag then "\n" else "").toList
        (if opensLine tag then [.char '\n'] else []) .content := by
      split
      · have hnew : '<' ∉ "\n".toList := by decide
        exact scans_content hnew
      · exact Scans.nil
    have hall := scans_writeAll (fun child hchild text => ih child hchild) hcontent
    have htext : ("<" ++ tag ++ fields ++ ">" ++ (if opensLine tag then "\n" else "") ++ content ++
        "</" ++ tag ++ ">").toList = ("<" ++ tag ++ fields ++ ">").toList ++
          ((if opensLine tag then "\n" else "").toList ++ content.toList ++
            ("</" ++ tag ++ ">").toList) := by
      simp only [String.toList_append, List.append_assoc]
    rw [htext, pieces]
    exact (scans_opening htag hsorted hfields).append
      ((hline.append hall).append (scans_closing htag))

/-! ### Collecting from tags -/

section

variable {β : Type} {f : String → List (String × String) → Option β}

/-- What is found at an opening tag. -/
def Piece.find? (f : String → List (String × String) → Option β) : Piece → Option β
  | .opening tag attributes => f tag attributes
  | _ => none

/-- What is found at the opening tags among some pieces, in order. -/
def collect (f : String → List (String × String) → Option β) (pieces : List Piece) : List β :=
  pieces.filterMap (Piece.find? f)

@[simp]
theorem collect_nil : collect f [] = [] := rfl

@[simp]
theorem collect_opening (tag : String) (fields : List (String × String)) (rest : List Piece) :
    collect f (.opening tag fields :: rest) = (f tag fields).toList ++ collect f rest := by
  rw [collect, collect, List.filterMap_cons, Piece.find?]
  cases f tag fields <;> rfl

@[simp]
theorem collect_closing (tag : String) (rest : List Piece) :
    collect f (.closing tag :: rest) = collect f rest := rfl

@[simp]
theorem collect_char (c : Char) (rest : List Piece) :
    collect f (.char c :: rest) = collect f rest := rfl

/-- What is collected from pieces in a row is collected from each part in turn. -/
theorem collect_append (front rest : List Piece) :
    collect f (front ++ rest) = collect f front ++ collect f rest :=
  List.filterMap_append

theorem collect_flatMap {γ : Type} (parts : List γ) (g : γ → List Piece) :
    collect f (parts.flatMap g) = parts.flatMap fun part => collect f (g part) :=
  List.filterMap_flatMap ..

/-- Nothing is collected from characters. -/
theorem collect_chars (chars : List Char) : collect f (chars.map .char) = [] := by
  induction chars with
  | nil => rfl
  | cons c chars ih => rw [List.map_cons, collect_char, ih]

theorem collect_piecesAll (trees : List Markup) :
    collect f (piecesAll trees) = trees.flatMap fun tree => collect f tree.pieces := by
  rw [piecesAll_eq_flatMap, collect_flatMap]

/-- In an element, something is found at its own tag, and then in its children. -/
theorem collect_pieces_element (tag : String) (attributes : List (String × AttributeValue))
    (children : List Markup) :
    collect f (Markup.element tag attributes children).pieces =
      (f tag ((sortAttributes attributes).map writtenField)).toList ++
        children.flatMap fun child => collect f child.pieces := by
  have hline : collect f (if opensLine tag then [.char '\n'] else []) = [] := by
    split <;> rfl
  rw [pieces, collect_opening, collect_append, collect_append, hline, collect_piecesAll,
    List.nil_append, collect_closing, collect_nil, List.append_nil]

end

end Markup

end SyntaxDiagram
