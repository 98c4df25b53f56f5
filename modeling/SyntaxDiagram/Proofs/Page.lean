import SyntaxDiagram.Layout
import SyntaxDiagram.Page
import SyntaxDiagram.Proofs.Figure
import SyntaxDiagram.Proofs.Grammar.Built
import Mathlib.Data.List.Count

/-!
# Links on a page

The page of a grammar has a heading for every entry with a diagram, and a link for every reference
in them to a rule or a terminal of the grammar.  A fragment is a terminal without a heading; so all
links lead to headings iff no entry with a diagram refers to a fragment
(`Grammar.Built.links_page`).
-/

namespace SyntaxDiagram

namespace Markup

/-! ### Links and headings -/

/-- The name after the sign for a place on the same page. -/
def localName? : List Char → Option String
  | '#' :: name => some (String.ofList name)
  | _ => none

/-- The place on the same page that a tag links to. -/
def linkName? (tag : String) (fields : List (String × String)) : Option String :=
  if tag = "a" then
    (fields.lookup "xlink:href").bind fun value => localName? (unescape value.toList)
  else none

/-- The name by which a heading can be linked to. -/
def headingName? (tag : String) (fields : List (String × String)) : Option String :=
  if tag = "h1" then
    (fields.lookup "id").map fun value => String.ofList (unescape value.toList)
  else none

/-- The names of all links, in order. -/
def links (pieces : List Piece) : List String :=
  collect linkName? pieces

/-- The names of all headings, in order. -/
def headings (pieces : List Piece) : List String :=
  collect headingName? pieces

end Markup

/-- The name that a linked caption links to. -/
def linkedName? (caption : LabelKind × String) : Option String :=
  if Box.isLinked caption.1 then some caption.2 else none

/-- Only anchors link to a place. -/
theorem linkName?_eq_none {tags : List String} (h : "a" ∉ tags) :
    ∀ tag ∈ tags, ∀ fields, Markup.linkName? tag fields = none := by
  intro tag htag fields
  have hne : tag ≠ "a" := by
    rintro rfl
    exact h htag
  exact if_neg hne

/-- Only headings can be linked to. -/
theorem headingName?_eq_none {tags : List String} (h : "h1" ∉ tags) :
    ∀ tag ∈ tags, ∀ fields, Markup.headingName? tag fields = none := by
  intro tag htag fields
  have hne : tag ≠ "h1" := by
    rintro rfl
    exact h htag
  exact if_neg hne

/-- The link of a caption is to the name that the caption links to. -/
theorem findLink_linkName? : findLink Markup.linkName? = linkedName? := by
  funext caption
  have hname : Markup.unescape (Markup.escapeAttribute ("#" ++ caption.2)).toList =
      '#' :: caption.2.toList := by
    rw [Markup.unescape_escapeAttribute, String.toList_append]
    rfl
  have hlink : Markup.linkName? "a" [("xlink:href", Markup.escapeAttribute ("#" ++ caption.2))] =
      some caption.2 := by
    rw [Markup.linkName?, if_pos rfl, List.lookup_cons, beq_self_eq_true, Option.bind_some, hname,
      Markup.localName?, String.ofList_toList]
  rw [findLink, linkedName?, hlink]

/-- There is no heading among the links of captions. -/
theorem findLink_headingName? (caption : LabelKind × String) :
    findLink Markup.headingName? caption = none := by
  have hheading (fields : List (String × String)) : Markup.headingName? "a" fields = none :=
    if_neg (by decide)
  rw [findLink, hheading, ite_self]

/-! ### The text of a page -/

namespace Page

open Markup (Piece)

variable {m : Metrics} {theme : Theme}

/-- The pieces that a page starts with.  They are those of no tree: the body stays open. -/
def openingPieces (theme : Theme) (title : String) : List Piece :=
  [Piece.opening "!doctype" [("html", "")], .opening "title" []] ++
    (Markup.escapeText title).toList.map Piece.char ++ [Piece.closing "title"] ++
    [Piece.char '\n', .opening "style" [], .char '\n'] ++ theme.style.toList.map Piece.char ++
    [Piece.closing "style", .char '\n', .opening "body" []]

/-- The pieces of the heading of a drawing and of its documentation. -/
def headingPieces (identifier documentation : String) : List Piece :=
  [Piece.char '\n', .opening "h1" [("id", Markup.escapeAttribute identifier)]] ++
    (Markup.escapeText identifier).toList.map Piece.char ++ [Piece.closing "h1", .char '\n'] ++
    if documentation.isEmpty then []
    else [Piece.opening "p" []] ++ (Markup.escapeText documentation).toList.map Piece.char ++
      [Piece.closing "p", .char '\n']

/-- The pieces of a drawing on a page, with the tree of its figure. -/
def blockPieces (block : Drawing × Markup) : List Piece :=
  headingPieces block.1.diagram.identifier block.1.diagram.documentation ++ block.2.pieces ++
    [Piece.char '\n']

/-- The start of a page is scanned as its pieces, when no tag starts in the style sheet. -/
theorem scans_opening (title : String) (hstyle : '<' ∉ theme.style.toList) :
    Markup.Scans .content (opening theme title).toList (openingPieces theme title) .content := by
  have hstart : Markup.Scans .content "<!doctype html><title>".toList
      [.opening "!doctype" [("html", "")], .opening "title" []] .content := rfl
  have htitle := Markup.scans_content (Markup.angle_notMem_escapeText title)
  have hclose : Markup.Scans .content "</title>".toList [.closing "title"] .content := rfl
  have hmiddle : Markup.Scans .content "\n<style>\n".toList
      [.char '\n', .opening "style" [], .char '\n'] .content := rfl
  have hrules := Markup.scans_content hstyle
  have hend : Markup.Scans .content "</style>\n<body>".toList
      [.closing "style", .char '\n', .opening "body" []] .content := rfl
  have hscan :=
    ((((hstart.append htitle).append hclose).append hmiddle).append hrules).append hend
  simp only [← String.toList_append] at hscan
  exact hscan

/-- The heading of a drawing is scanned as its pieces. -/
theorem scans_heading (identifier documentation : String) :
    Markup.Scans .content (heading identifier documentation).toList
      (headingPieces identifier documentation) .content := by
  have hstart : Markup.Scans .content "\n<h1 id=\"".toList [.char '\n'] (.value "h1" [] "id" []) :=
    rfl
  have hname : Markup.Scans (.value "h1" [] "id" []) (Markup.escapeAttribute identifier).toList []
      (.value "h1" [] "id" (Markup.escapeAttribute identifier).toList) :=
    Markup.scans_value (Markup.quote_notMem_escapeAttribute identifier)
  have hquote (name : List Char) : Markup.Scans (.value "h1" [] "id" name) "\">".toList
      [.opening "h1" [("id", String.ofList name)]] .content := rfl
  have htext := Markup.scans_content (Markup.angle_notMem_escapeText identifier)
  have hclose : Markup.Scans .content "</h1>\n".toList [.closing "h1", .char '\n'] .content := rfl
  have hline := (((hstart.append hname).append (hquote _)).append htext).append hclose
  rw [String.ofList_toList] at hline
  by_cases hempty : documentation.isEmpty = true
  · rw [heading, headingPieces, if_pos hempty, if_pos hempty, String.append_empty, List.append_nil]
    simp only [← String.toList_append] at hline
    exact hline
  · have hopen : Markup.Scans .content "<p>".toList [.opening "p" []] .content := rfl
    have hwords := Markup.scans_content (Markup.angle_notMem_escapeText documentation)
    have hend : Markup.Scans .content "</p>\n".toList [.closing "p", .char '\n'] .content := rfl
    have hscan := hline.append ((hopen.append hwords).append hend)
    simp only [← String.toList_append] at hscan
    rw [heading, headingPieces, if_neg hempty, if_neg hempty]
    exact hscan

/-- A drawing on a page is scanned as its heading and the tree of its figure. -/
theorem exists_of_block {d : Drawing} {text : String} (h : block m theme d = .ok text) :
    ∃ tree, d.figure m theme = .ok tree ∧
      Markup.Scans .content text.toList (blockPieces (d, tree)) .content := by
  rw [block, bind_eq_ok_iff] at h
  obtain ⟨tree, htree, h⟩ := h
  obtain ⟨written, hwritten, h⟩ := bind_eq_ok_iff.mp h
  obtain rfl := pure_eq_ok_iff.mp h
  have hheading := scans_heading d.diagram.identifier d.diagram.documentation
  have hwrite := Markup.scans_write (Drawing.regular_figure htree) hwritten
  have hline : Markup.Scans .content "\n".toList [.char '\n'] .content := rfl
  have hscan := (hheading.append hwrite).append hline
  simp only [← String.toList_append] at hscan
  exact ⟨tree, htree, hscan⟩

/-- The drawings of a page are scanned as blocks in a row, each with the tree of its figure. -/
theorem exists_of_blocks {drawings : List Drawing} {texts : List String}
    (h : drawings.mapM (block m theme) = .ok texts) :
    ∃ blocks : List (Drawing × Markup), blocks.map Prod.fst = drawings ∧
      (∀ block ∈ blocks, block.1.figure m theme = .ok block.2) ∧
      Markup.Scans .content (String.join texts).toList (blocks.flatMap blockPieces) .content := by
  rw [mapM_eq_ok_iff] at h
  induction h with
  | nil => exact ⟨[], rfl, by simp, rfl⟩
  | @cons d text _ _ hblock _ ih =>
    obtain ⟨tree, htree, hfirst⟩ := exists_of_block hblock
    obtain ⟨blocks, rfl, hfigures, hothers⟩ := ih
    refine ⟨(d, tree) :: blocks, rfl, List.forall_mem_cons.mpr ⟨htree, hfigures⟩, ?_⟩
    rw [String.join_cons, String.toList_append, List.flatMap_cons]
    exact hfirst.append hothers

/-- A page is scanned as its opening and its drawings. -/
theorem exists_of_write {title : String} {drawings : List Drawing} {text : String}
    (hstyle : '<' ∉ theme.style.toList) (h : write m theme title drawings = .ok text) :
    ∃ blocks : List (Drawing × Markup), blocks.map Prod.fst = drawings ∧
      (∀ block ∈ blocks, block.1.figure m theme = .ok block.2) ∧
      Markup.scan text = some (openingPieces theme title ++ blocks.flatMap blockPieces) := by
  rw [write, bind_eq_ok_iff] at h
  obtain ⟨texts, htexts, h⟩ := h
  obtain rfl := pure_eq_ok_iff.mp h
  obtain ⟨blocks, hblocks, hfigures, hothers⟩ := exists_of_blocks htexts
  have hscan := (scans_opening title hstyle).append hothers
  rw [← String.toList_append] at hscan
  exact ⟨blocks, hblocks, hfigures, Markup.scan_eq_of_scans hscan⟩

/-! ### Links and headings of a page -/

section

variable {f : String → List (String × String) → Option String}

/-- What a page starts with has neither links nor headings. -/
theorem collect_openingPieces (title : String)
    (hf : ∀ tag ∈ ["!doctype", "title", "style", "body"], ∀ fields, f tag fields = none) :
    Markup.collect f (openingPieces theme title) = [] := by
  simp [openingPieces, Markup.collect_append, Markup.collect_chars, hf]

/-- In the heading of a drawing, something is found at the heading itself. -/
theorem collect_headingPieces (identifier documentation : String)
    (hf : ∀ fields, f "p" fields = none) :
    Markup.collect f (headingPieces identifier documentation) =
      (f "h1" [("id", Markup.escapeAttribute identifier)]).toList := by
  rw [headingPieces]
  split_ifs
  · simp [Markup.collect_append, Markup.collect_chars]
  · simp [Markup.collect_append, Markup.collect_chars, hf]

end

/-- The links of a drawing on a page are those of its linked captions. -/
theorem links_blockPieces {block : Drawing × Markup} (h : block.1.figure m theme = .ok block.2) :
    Markup.links (blockPieces block) =
      block.1.diagram.root.captions.filterMap linkedName? := by
  have hlinks := FindsLinks.collect_figure (linkName?_eq_none (by decide)) h
  have hnone : Markup.linkName? "h1"
      [("id", Markup.escapeAttribute block.1.diagram.identifier)] = none := if_neg (by decide)
  rw [Markup.links, blockPieces, Markup.collect_append, Markup.collect_append,
    collect_headingPieces _ _ fun _ => if_neg (by decide), hlinks, hnone, findLink_linkName?]
  exact List.append_nil _

/-- A drawing on a page has one heading, with its identifier. -/
theorem headings_blockPieces {block : Drawing × Markup}
    (h : block.1.figure m theme = .ok block.2) :
    Markup.headings (blockPieces block) = [block.1.diagram.identifier] := by
  have hheadings := FindsLinks.collect_figure (headingName?_eq_none (by decide)) h
  have hname : Markup.headingName? "h1"
      [("id", Markup.escapeAttribute block.1.diagram.identifier)] =
        some block.1.diagram.identifier := by
    rw [Markup.headingName?, if_pos rfl, List.lookup_cons, beq_self_eq_true, Option.map_some,
      Markup.unescape_escapeAttribute, String.ofList_toList]
  rw [Markup.headings, blockPieces, Markup.collect_append, Markup.collect_append,
    collect_headingPieces _ _ fun _ => if_neg (by decide), hheadings, hname]
  simp [findLink_headingName?]

/-- A page has a heading for each drawing, and a link for each linked caption. -/
theorem exists_scan_write {title : String} {drawings : List Drawing} {text : String}
    (hstyle : '<' ∉ theme.style.toList) (h : write m theme title drawings = .ok text) :
    ∃ pieces, Markup.scan text = some pieces ∧
      Markup.links pieces =
        drawings.flatMap (fun d => d.diagram.root.captions.filterMap linkedName?) ∧
      Markup.headings pieces = drawings.map (·.diagram.identifier) := by
  obtain ⟨blocks, rfl, hfigures, hscan⟩ := exists_of_write hstyle h
  refine ⟨_, hscan, ?_, ?_⟩
  · have hblocks : Markup.links (blocks.flatMap blockPieces) = blocks.flatMap fun block =>
        block.1.diagram.root.captions.filterMap linkedName? := by
      rw [Markup.links, Markup.collect_flatMap]
      exact List.flatMap_congr fun block hblock => links_blockPieces (hfigures block hblock)
    rw [Markup.links, Markup.collect_append,
      collect_openingPieces title (linkName?_eq_none (by decide)), List.nil_append,
      List.flatMap_map]
    exact hblocks
  · have hblocks : Markup.headings (blocks.flatMap blockPieces) =
        blocks.flatMap fun block => [block.1.diagram.identifier] := by
      rw [Markup.headings, Markup.collect_flatMap]
      exact List.flatMap_congr fun block hblock => headings_blockPieces (hfigures block hblock)
    rw [Markup.headings, Markup.collect_append,
      collect_openingPieces title (headingName?_eq_none (by decide)), List.nil_append,
      List.map_map]
    exact hblocks.trans List.map_eq_flatMap.symm

end Page

/-! ### The page of a grammar -/

/-- The name of a reference to a rule or a terminal of the grammar. -/
def linkedReference? (reference : String × Option SymbolKind) : Option String :=
  if Box.isLinked (.rule reference.2) then some reference.1 else none

/-- The linked captions of an entry are its references to rules and terminals. -/
theorem Entry.filterMap_linkedName?_captions (entry : Entry) :
    entry.captions.filterMap linkedName? = entry.references.filterMap linkedReference? := by
  rw [captions, references, List.filterMap_filterMap, List.filterMap_filterMap]
  congr 1
  funext element
  cases element <;> rfl

namespace Grammar

/-- An identifier names a fragment of the grammar. -/
def NamesFragment (g : Grammar) (identifier : String) : Prop :=
  ∃ target ∈ g.entries, target.identifier = identifier ∧ target.kind.isFragment = true

variable {g : Grammar}

/-- A linked reference of an entry names an entry, which has a diagram unless it is a fragment. -/
theorem Built.mem_diagramIdentifiers_iff (h : g.Built) {entry : Entry} (hentry : entry ∈ g.entries)
    {name : String} (hname : name ∈ entry.references.filterMap linkedReference?) :
    name ∈ g.diagramEntries.map (·.identifier) ↔ ¬ g.NamesFragment name := by
  obtain ⟨⟨identifier, kind⟩, hreference, hlinked⟩ := List.mem_filterMap.mp hname
  unfold linkedReference? at hlinked
  split_ifs at hlinked with hkind
  obtain rfl := Option.some.inj hlinked
  rcases h.kind_of_mem_references hentry hreference with ⟨target, htarget, rfl, -⟩ | ⟨-, rfl⟩
  · constructor
    · rintro hmem ⟨other, hother, heq, hfragment⟩
      obtain ⟨shown, hshown, heq'⟩ := List.mem_map.mp hmem
      obtain ⟨hshown, hplain⟩ := h.mem_diagramEntries_iff.mp hshown
      rw [h.eq_of_identifier_eq hother hshown (heq.trans heq'.symm), hplain] at hfragment
      exact absurd hfragment (by decide)
    · intro hfragment
      refine List.mem_map.mpr ⟨target, h.mem_diagramEntries_iff.mpr ⟨htarget, ?_⟩, rfl⟩
      rw [Bool.eq_false_iff]
      exact fun hkind => hfragment ⟨target, htarget, rfl, hkind⟩
  · exact absurd hkind Bool.false_ne_true

/-- A reference to a fragment is linked. -/
theorem Built.mem_linked_of_namesFragment (h : g.Built) {entry : Entry} (hentry : entry ∈ g.entries)
    {reference : String × Option SymbolKind} (hreference : reference ∈ entry.references)
    (hfragment : g.NamesFragment reference.1) :
    reference.1 ∈ entry.references.filterMap linkedReference? := by
  refine List.mem_filterMap.mpr ⟨reference, hreference, if_pos ?_⟩
  obtain ⟨identifier, kind⟩ := reference
  obtain ⟨fragment, hfragment, heq, -⟩ := hfragment
  rcases h.kind_of_mem_references hentry hreference with ⟨target, -, -, rfl⟩ | ⟨hnone, -⟩
  · cases target.kind <;> rfl
  · exact absurd heq (hnone fragment hfragment)

/-- Layouts keep the identifiers of their entries, in order. -/
theorem map_identifier_of_layout {m : Metrics} {measure : Measure} {entries : List Entry}
    {drawings : List Drawing} (h : entries.mapM (Entry.layout m measure) = .ok drawings) :
    drawings.map (·.diagram.identifier) = entries.map (·.identifier) := by
  refine map_eq_map_of_mapM_eq_ok h fun entry _ d hd => ?_
  rw [Entry.layout, bind_eq_ok_iff] at hd
  obtain ⟨root, -, hd⟩ := hd
  obtain rfl := pure_eq_ok_iff.mp hd
  rfl

/-- The page of some entries has a heading for each of them, and a link for each of their references
to a rule or a terminal of the grammar. -/
theorem exists_scan_page {m : Metrics} {measure : Measure} {theme : Theme} {title text : String}
    {entries : List Entry} {drawings : List Drawing} (hstyle : '<' ∉ theme.style.toList)
    (hdrawings : entries.mapM (Entry.layout m measure) = .ok drawings)
    (hpage : Page.write m theme title drawings = .ok text) :
    ∃ pieces, Markup.scan text = some pieces ∧
      Markup.headings pieces = entries.map (·.identifier) ∧
      Markup.links pieces =
        entries.flatMap fun entry => entry.references.filterMap linkedReference? := by
  obtain ⟨pieces, hscan, hlinks, hheadings⟩ := Page.exists_scan_write hstyle hpage
  have hcaptions : drawings.map (fun d => d.diagram.root.captions.filterMap linkedName?) =
      entries.map fun entry => entry.references.filterMap linkedReference? :=
    map_eq_map_of_mapM_eq_ok hdrawings fun entry _ d hd => by
      rw [Entry.captions_layout hd, Entry.filterMap_linkedName?_captions]
  rw [List.flatMap_def, hcaptions, ← List.flatMap_def] at hlinks
  rw [map_identifier_of_layout hdrawings] at hheadings
  exact ⟨pieces, hscan, hheadings, hlinks⟩

theorem exists_page_sample : ∃ drawings text,
    sample.diagramEntries.mapM (Entry.layout .standard (.const (some (.int 9)))) = .ok drawings ∧
      Page.write .standard .standard "Sum" drawings = .ok text :=
  exists_of_isSome_bind (by decide +kernel)

/-- The page of a grammar has a heading for each entry with a diagram, and a link for each reference
in them to a rule or a terminal of the grammar.  Each link leads to exactly one heading iff none of
these references is to a fragment. -/
theorem Built.links_page (h : g.Built) {m : Metrics} {measure : Measure} {theme : Theme}
    {title text : String} {drawings : List Drawing} (hstyle : '<' ∉ theme.style.toList)
    (hdrawings : g.diagramEntries.mapM (Entry.layout m measure) = .ok drawings)
    (hpage : Page.write m theme title drawings = .ok text) :
    ∃ pieces, Markup.scan text = some pieces ∧
      Markup.headings pieces = g.diagramEntries.map (·.identifier) ∧
      Markup.links pieces =
        g.diagramEntries.flatMap (fun entry => entry.references.filterMap linkedReference?) ∧
      ((∀ name ∈ Markup.links pieces, (Markup.headings pieces).count name = 1) ↔
        ∀ entry ∈ g.diagramEntries, ∀ reference ∈ entry.references,
          ¬ g.NamesFragment reference.1) := by
  obtain ⟨pieces, hscan, hheadings, hlinks⟩ := exists_scan_page hstyle hdrawings hpage
  have hentries : ∀ entry ∈ g.diagramEntries, entry ∈ g.entries :=
    fun entry hentry => (h.mem_diagramEntries_iff.mp hentry).1
  refine ⟨pieces, hscan, hheadings, hlinks, ?_⟩
  rw [hlinks, hheadings]
  constructor
  · -- a reference to a fragment is linked, to a heading that there is not
    intro hcount entry hentry reference hreference hfragment
    have hlinked := h.mem_linked_of_namesFragment (hentries entry hentry) hreference hfragment
    have hone := hcount reference.1 (List.mem_flatMap.mpr ⟨entry, hentry, hlinked⟩)
    have hmem : reference.1 ∈ g.diagramEntries.map (·.identifier) :=
      List.count_pos_iff.mp (by omega)
    exact (h.mem_diagramIdentifiers_iff (hentries entry hentry) hlinked).mp hmem hfragment
  · -- any other linked name is that of one entry with a diagram
    intro hplain name hname
    obtain ⟨entry, hentry, hlinked⟩ := List.mem_flatMap.mp hname
    obtain ⟨reference, hreference, heq⟩ := List.mem_filterMap.mp hlinked
    have hname : name = reference.1 := by
      unfold linkedReference? at heq
      split_ifs at heq
      exact (Option.some.inj heq).symm
    refine List.count_eq_one_of_mem h.nodup_diagramIdentifiers ?_
    refine (h.mem_diagramIdentifiers_iff (hentries entry hentry) hlinked).mpr ?_
    rw [hname]
    exact hplain entry hentry reference hreference

theorem links_page_sample : ∃ drawings text pieces,
    sample.diagramEntries.mapM (Entry.layout .standard (.const (some (.int 9)))) = .ok drawings ∧
      Page.write .standard .standard "Sum" drawings = .ok text ∧
      Markup.scan text = some pieces ∧ Markup.headings pieces = ["sum", "NUMBER"] ∧
      Markup.links pieces = ["NUMBER", "DIGIT"] := by
  obtain ⟨drawings, text, hdrawings, hpage⟩ := exists_page_sample
  have hstyle : '<' ∉ Theme.standard.style.toList := angle_notMem_standardStyle
  obtain ⟨pieces, hscan, hheadings, hlinks, -⟩ := built_sample.links_page hstyle hdrawings hpage
  exact ⟨drawings, text, pieces, hdrawings, hpage, hscan, hheadings, hlinks⟩

/-- A terminal of the example refers to a fragment: the link leads nowhere. -/
theorem dead_link_sample : ∃ drawings text pieces,
    sample.diagramEntries.mapM (Entry.layout .standard (.const (some (.int 9)))) = .ok drawings ∧
      Page.write .standard .standard "Sum" drawings = .ok text ∧
      Markup.scan text = some pieces ∧
      ∃ name ∈ Markup.links pieces, (Markup.headings pieces).count name ≠ 1 := by
  obtain ⟨drawings, text, hdrawings, hpage⟩ := exists_page_sample
  have hstyle : '<' ∉ Theme.standard.style.toList := angle_notMem_standardStyle
  obtain ⟨pieces, hscan, hheadings, hlinks⟩ := exists_scan_page hstyle hdrawings hpage
  refine ⟨drawings, text, pieces, hdrawings, hpage, hscan, "DIGIT", ?_, ?_⟩
  · rw [hlinks]
    decide
  · rw [hheadings]
    decide

end Grammar

end SyntaxDiagram
