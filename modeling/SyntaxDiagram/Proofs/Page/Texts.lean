import SyntaxDiagram.Proofs.Figure.Texts
import SyntaxDiagram.Proofs.Geometry.Containment
import SyntaxDiagram.Proofs.Page

/-!
# Texts of pages

No text of the user becomes markup on a page: the contents of a page are the texts that went into
it, and its tags are those of any other page of drawings that are the same without their texts
(`Page.contents_write`).  The sizes of a layout are no concern, since they follow from those of its
box (`Drawing.LaidOut.sizes_eq`).
-/

namespace SyntaxDiagram

open Markup (Content Tells tags)

/-! ### Drawings without texts -/

namespace Drawing

variable {m : Metrics} {theme : Theme} {d d' : Drawing}

/-- A drawing is the layout of an entry. -/
def LaidOut (m : Metrics) (d : Drawing) : Prop :=
  ∃ measure entry, Entry.layout m measure entry = .ok d

/-- What is left of a drawing on a page without its texts: its boxes, and whether there is any
documentation. -/
def wordless (d : Drawing) : Box Placement × Bool :=
  (d.diagram.root.wordless, d.diagram.documentation.isEmpty)

/-- The sizes of a layout are those of its box and what is around every box. -/
theorem LaidOut.sizes_eq (theme : Theme) (h : d.LaidOut m) (h' : d'.LaidOut m)
    (hframe : d.diagram.root.frame = d'.diagram.root.frame) :
    d.figureAttributes theme = d'.figureAttributes theme ∧ d.start = d'.start ∧
      d.finish = d'.finish ∧ d.termini = d'.termini := by
  obtain ⟨measure, entry, hlayout⟩ := h
  obtain ⟨measure', entry', hlayout'⟩ := h'
  obtain ⟨root, -, rfl⟩ := Entry.exists_box_of_layout hlayout
  obtain ⟨root', -, rfl⟩ := Entry.exists_box_of_layout hlayout'
  simp only [Diagram.draw, Diagram.withRoot, Diagram.ofBox] at hframe
  have hwidth : root.width = root'.width := by
    rw [← Box.width_place m _ _ _ root, Box.width, hframe, ← Box.width, Box.width_place]
  have hup : root.up = root'.up := by
    rw [← Box.up_place m _ _ _ root, Box.up, hframe, ← Box.up, Box.up_place]
  have hdown : root.down = root'.down := by
    rw [← Box.down_place m _ _ _ root, Box.down, hframe, ← Box.down, Box.down_place]
  simp only [figureAttributes, Diagram.draw, Diagram.withRoot, Diagram.ofBox, hwidth, hup, hdown,
    and_self]

/-- Layouts that differ in their texts have figures with the same tags. -/
theorem tags_figure (h : d.LaidOut m) (h' : d'.LaidOut m)
    (hwordless : d.diagram.root.wordless = d'.diagram.root.wordless) {tree tree' : Markup}
    (htree : d.figure m theme = .ok tree) (htree' : d'.figure m theme = .ok tree') :
    tags tree.pieces = tags tree'.pieces := by
  obtain ⟨content, hcontent, rfl⟩ := exists_of_figure htree
  obtain ⟨content', hcontent', rfl⟩ := exists_of_figure htree'
  obtain ⟨root, hroot, rfl⟩ := exists_of_content hcontent
  obtain ⟨root', hroot', rfl⟩ := exists_of_content hcontent'
  have hframe : d.diagram.root.frame = d'.diagram.root.frame := by
    rw [← Box.frame_wordless, hwordless, Box.frame_wordless]
  obtain ⟨hattributes, hstart, hfinish, htermini⟩ := h.sizes_eq theme h' hframe
  have hsame := Box.tags_toMarkup hwordless hroot hroot'
  simp only [Markup.tags_pieces_element, hattributes, hstart, hfinish, htermini,
    List.flatMap_append, List.flatMap_cons, List.flatMap_nil, hsame]

/-- What a page says of a drawing. -/
def contents (d : Drawing) : List Content :=
  .heading d.diagram.identifier d.diagram.identifier ::
    ((if d.diagram.documentation.isEmpty then [] else [.paragraph d.diagram.documentation]) ++
      d.diagram.root.captions.flatMap captionContents)

end Drawing

/-- What a page says of an entry. -/
theorem Entry.contents_layout {m : Metrics} {measure : Measure} {entry : Entry} {d : Drawing}
    (h : entry.layout m measure = .ok d) :
    d.contents = .heading entry.identifier entry.identifier ::
      ((if entry.documentation.isEmpty then [] else [.paragraph entry.documentation]) ++
        entry.captions.flatMap captionContents) := by
  rw [Drawing.contents, Entry.captions_layout h]
  obtain ⟨root, -, rfl⟩ := exists_box_of_layout h
  rfl

/-! ### Pages -/

namespace Page

open Markup (Piece)

variable {m : Metrics} {theme : Theme}

/-- A page starts with its title and tells nothing else there. -/
theorem tells_openingPieces (title : String) :
    Tells (openingPieces theme title) [.title title] := by
  have hstart : Tells [.opening "!doctype" [("html", "")]] [] := .plainOpening (by decide) _
  have htitle := Tells.run "title" [] (Markup.escapeText title).toList
  rw [Markup.told_title, Markup.decoded_escapeText] at htitle
  have hstyle := Tells.run "style" [] ('\n' :: theme.style.toList)
  rw [Markup.told_style] at hstyle
  have hbody : Tells [.opening "body" []] [] := .plainOpening (by decide) _
  have hall := hstart.append (htitle.append (Tells.newline.append
    (hstyle.append (Tells.newline.append hbody))))
  simpa [openingPieces] using hall

/-- A heading tells its identifier twice, as a name and as a text, and then the documentation. -/
theorem tells_headingPieces (identifier documentation : String) :
    Tells (headingPieces identifier documentation) (.heading identifier identifier ::
      if documentation.isEmpty then [] else [.paragraph documentation]) := by
  have hname : Markup.fieldText "id" [("id", Markup.escapeAttribute identifier)] = identifier :=
    Markup.decoded_escapeAttribute identifier
  have hheading := Tells.run "h1" [("id", Markup.escapeAttribute identifier)]
    (Markup.escapeText identifier).toList
  rw [Markup.told_h1, Markup.decoded_escapeText, hname] at hheading
  have hline := Tells.newline.append (hheading.append Tells.newline)
  have hparagraph := Tells.run "p" [] (Markup.escapeText documentation).toList
  rw [Markup.told_p, Markup.decoded_escapeText] at hparagraph
  have hall := hline.append (hparagraph.append Tells.newline)
  rw [headingPieces]
  split_ifs
  · simpa using hline
  · simpa using hall

/-- A drawing on a page tells its heading, its documentation and its captions. -/
theorem tells_blockPieces {block : Drawing × Markup} (h : block.1.figure m theme = .ok block.2) :
    Tells (blockPieces block) block.1.contents := by
  have hall := ((tells_headingPieces block.1.diagram.identifier
    block.1.diagram.documentation).append (Drawing.tells_figure h)).append Tells.newline
  rw [List.append_nil] at hall
  exact hall

theorem tags_openingPieces (title title' : String) :
    tags (openingPieces theme title) = tags (openingPieces theme title') := by
  simp only [openingPieces, Markup.tags_append, Markup.tags_chars]

/-- The tags of a heading depend on its texts by whether there is any documentation. -/
theorem tags_headingPieces {identifier identifier' documentation documentation' : String}
    (h : documentation.isEmpty = documentation'.isEmpty) :
    tags (headingPieces identifier documentation) =
      tags (headingPieces identifier' documentation') := by
  rw [headingPieces, headingPieces, h]
  split_ifs
  · simp only [Markup.tags_append, Markup.tags_chars]
    rfl
  · simp only [Markup.tags_append, Markup.tags_chars]
    rfl

/-- Drawings on a page that differ in their texts have the same tags. -/
theorem tags_blockPieces {block block' : Drawing × Markup} (hlaid : block.1.LaidOut m)
    (hlaid' : block'.1.LaidOut m) (hwordless : block.1.wordless = block'.1.wordless)
    (h : block.1.figure m theme = .ok block.2) (h' : block'.1.figure m theme = .ok block'.2) :
    tags (blockPieces block) = tags (blockPieces block') := by
  obtain ⟨hroot, hdocumentation⟩ := Prod.mk.inj hwordless
  rw [blockPieces, blockPieces, Markup.tags_append, Markup.tags_append, Markup.tags_append,
    Markup.tags_append, tags_headingPieces hdocumentation,
    Drawing.tags_figure hlaid hlaid' hroot h h']

/-- On a page of layouts, whatever its texts are, the contents are the title and then the heading,
the documentation and the captions of each drawing, with the links that they are in.  The tags are
those of every page of layouts that are the same without their texts. -/
theorem contents_write (hstyle : '<' ∉ theme.style.toList) {title text : String}
    {drawings : List Drawing} (hlaid : ∀ d ∈ drawings, d.LaidOut m)
    (h : write m theme title drawings = .ok text) :
    ∃ pieces, Markup.scan text = some pieces ∧
      Markup.contents pieces = .title title :: drawings.flatMap Drawing.contents ∧
      ∀ title' drawings' text', (∀ d ∈ drawings', d.LaidOut m) →
        drawings'.map Drawing.wordless = drawings.map Drawing.wordless →
        write m theme title' drawings' = .ok text' →
        ∃ pieces', Markup.scan text' = some pieces' ∧ tags pieces' = tags pieces := by
  obtain ⟨blocks, rfl, hfigures, hscan⟩ := exists_of_write hstyle h
  refine ⟨_, hscan, ?_, fun title' drawings' text' hlaid' hpages h' => ?_⟩
  · -- what is told: the title, and of each block what its drawing tells
    have hblocks : Tells (blocks.flatMap blockPieces)
        (blocks.flatMap fun block => block.1.contents) :=
      Tells.flatMap fun block hblock => tells_blockPieces (hfigures block hblock)
    rw [((tells_openingPieces title).append hblocks).contents_eq, List.flatMap_map]
    rfl
  · -- the tags of a block depend on its drawing without words only
    obtain ⟨blocks', rfl, hfigures', hscan'⟩ := exists_of_write hstyle h'
    rw [List.forall_mem_map] at hlaid hlaid'
    rw [List.map_map, List.map_map] at hpages
    have hblocks : (blocks'.flatMap fun block => tags (blockPieces block)) =
        blocks.flatMap fun block => tags (blockPieces block) :=
      flatMap_eq_flatMap_of_map_eq hpages fun block' hblock' block hblock hwordless =>
        tags_blockPieces (hlaid' block' hblock') (hlaid block hblock) hwordless
          (hfigures' block' hblock') (hfigures block hblock)
    refine ⟨_, hscan', ?_⟩
    rw [Markup.tags_append, Markup.tags_append, tags_openingPieces title' title,
      Markup.tags_flatMap, Markup.tags_flatMap, hblocks]

/-- A rule that is made of markup. -/
def mischief : Entry :=
  ⟨.rule, "\"><b>", "<p>&lt;</p>",
    [[.literal "</text></svg>", .reference "'&\"" (some .rule)], [.literal ""]]⟩

theorem exists_page_mischief : ∃ d text,
    mischief.layout .standard (.const (some (.int 9))) = .ok d ∧
      write .standard .standard "</title>" [d] = .ok text :=
  exists_of_isSome_bind (by decide +kernel)

theorem contents_write_mischief : ∃ d text pieces,
    mischief.layout .standard (.const (some (.int 9))) = .ok d ∧
      write .standard .standard "</title>" [d] = .ok text ∧ Markup.scan text = some pieces ∧
      Markup.contents pieces =
        [.title "</title>", .heading "\"><b>" "\"><b>", .paragraph "<p>&lt;</p>",
          .label "</text></svg>", .link "#'&\"", .label "'&\"", .label ""] := by
  obtain ⟨d, text, hlayout, hwrite⟩ := exists_page_mischief
  have hstyle : '<' ∉ Theme.standard.style.toList := angle_notMem_standardStyle
  have hlaid : ∀ d' ∈ [d], d'.LaidOut .standard :=
    List.forall_mem_singleton.mpr ⟨_, _, hlayout⟩
  obtain ⟨pieces, hscan, hcontents, -⟩ := contents_write hstyle hlaid hwrite
  rw [List.flatMap_singleton, Entry.contents_layout hlayout] at hcontents
  exact ⟨d, text, pieces, hlayout, hwrite, hscan, hcontents⟩

end Page

end SyntaxDiagram
