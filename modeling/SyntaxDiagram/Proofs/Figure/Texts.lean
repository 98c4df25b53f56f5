import SyntaxDiagram.Proofs.Figure
import SyntaxDiagram.Proofs.Markup.Texts

/-!
# Texts of figures

The contents of a figure are the captions of its boxes, in order, each after the link that it is in
(`Drawing.tells_figure`).  The tags of a group depend on the box without the texts of its labels
(`Box.tags_toMarkup`).
-/

namespace SyntaxDiagram

open Markup (Content Tells tags)

/-! ### Boxes without texts -/

namespace Box

section wordless

variable {α : Type}

mutual

/-- The tree without the texts of its labels. -/
def wordless : Box α → Box α
  | .label frame kind _ => .label frame kind ""
  | .line frame role items => .line frame role (wordlessList items)
  | .branch frame mainIndex separators offsets items =>
    .branch frame mainIndex separators offsets (wordlessList items)
  | .loop frame offset item => .loop frame offset (wordless item)

/-- The trees without the texts of their labels. -/
def wordlessList : List (Box α) → List (Box α)
  | [] => []
  | box :: rest => wordless box :: wordlessList rest

end

theorem wordlessList_eq_map (items : List (Box α)) : wordlessList items = items.map wordless := by
  induction items with
  | nil => rfl
  | cons box rest ih => rw [wordlessList, ih, List.map_cons]

@[simp]
theorem frame_wordless (box : Box α) : box.wordless.frame = box.frame := by
  cases box <;> rfl

theorem children_wordless (box : Box α) : box.wordless.children = box.children.map wordless := by
  cases box <;> simp only [wordless, children, wordlessList_eq_map, List.map_nil, List.map_cons]

/-- The attributes on the group of a box do not depend on its text. -/
theorem groupAttributes_wordless (box : Box Placement) :
    box.wordless.groupAttributes = box.groupAttributes := by
  cases box with
  | label frame kind text => cases kind <;> rfl
  | _ => rfl

end wordless

/-! ### Tags of groups -/

variable {m : Metrics} {theme : Theme}

/-- The tags of a label's text do not depend on the text. -/
theorem tags_labelText (x y : Number) (text : String) :
    tags (labelText x y text).pieces = tags (labelText x y "").pieces := by
  rw [labelText, labelText, Markup.withText, Markup.withText, Markup.tags_pieces_element,
    Markup.tags_pieces_element]
  congr 2
  split <;> simp [Markup.pieces]

theorem tags_labelLink (x y : Number) (text : String) :
    tags (labelLink x y text).pieces = tags (labelLink x y "").pieces := by
  have hfields (target : AttributeValue) :
      ((Markup.sortAttributes [("xlink:href", target)]).map Markup.writtenField).map
        Markup.withoutText = [("xlink:href", "")] := rfl
  rw [labelLink, labelLink, Markup.tags_pieces_element, Markup.tags_pieces_element, hfields,
    hfields, List.flatMap_singleton, List.flatMap_singleton, tags_labelText]

/-- The tags of what a label box holds are the same for all texts. -/
theorem exists_ownMarkup_wordless {box : Box Placement} {own : List Markup}
    (h : box.ownMarkup theme = .ok own) :
    ∃ blank, box.wordless.ownMarkup theme = .ok blank ∧
      (own.flatMap fun tree => tags tree.pieces) = blank.flatMap fun tree => tags tree.pieces := by
  cases box with
  | label frame kind text =>
    obtain ⟨x, y, hx, hy, rfl⟩ := exists_of_labelMarkup h
    refine ⟨_, labelMarkup_eq_ok hx hy kind "", ?_⟩
    simp only [List.flatMap_cons, List.flatMap_nil, List.append_nil]
    congr 1
    by_cases hlinked : isLinked kind = true
    · rw [if_pos hlinked, if_pos hlinked]
      exact tags_labelLink x y text
    · rw [if_neg hlinked, if_neg hlinked]
      exact tags_labelText x y text
  | _ => exact ⟨own, h, rfl⟩

end Box

/-- What is the same for all elements that look the same is the same for lists of them. -/
theorem flatMap_eq_flatMap_of_map_eq {α β γ : Type} {xs xs' : List α} {look : α → β}
    {f : α → List γ} (h : xs.map look = xs'.map look)
    (hf : ∀ x ∈ xs, ∀ x' ∈ xs', look x = look x' → f x = f x') : xs.flatMap f = xs'.flatMap f := by
  induction xs generalizing xs' with
  | nil =>
    obtain rfl := List.map_eq_nil_iff.mp h.symm
    rfl
  | cons x xs ih =>
    obtain ⟨x', rest, rfl, hx, hrest⟩ := List.map_eq_cons_iff.mp h.symm
    rw [List.flatMap_cons, List.flatMap_cons,
      hf x (List.mem_cons_self ..) x' (List.mem_cons_self ..) hx.symm,
      ih hrest.symm fun y hy y' hy' =>
        hf y (List.mem_cons_of_mem _ hy) y' (List.mem_cons_of_mem _ hy')]

namespace Box

variable {m : Metrics} {theme : Theme}

/-- Boxes that differ in the texts of their labels have the same tags. -/
theorem tags_toMarkup {box box' : Box Placement} {tree tree' : Markup}
    (hwordless : box.wordless = box'.wordless) (h : box.toMarkup m theme = .ok tree)
    (h' : box'.toMarkup m theme = .ok tree') : tags tree.pieces = tags tree'.pieces := by
  induction box using Box.induction generalizing box' tree tree' with
  | step box ih =>
    obtain ⟨own, groups, hown, hgroups, rfl⟩ := exists_of_toMarkup h
    obtain ⟨own', groups', hown', hgroups', rfl⟩ := exists_of_toMarkup h'
    have hframe : box.frame = box'.frame := by
      rw [← frame_wordless, hwordless, frame_wordless]
    have hattributes : box.groupAttributes = box'.groupAttributes := by
      rw [← groupAttributes_wordless, hwordless, groupAttributes_wordless]
    -- what the box draws itself differs in nothing but its text
    have hsame : (own.flatMap fun tree => tags tree.pieces) =
        own'.flatMap fun tree => tags tree.pieces := by
      obtain ⟨blank, hblank, heq⟩ := exists_ownMarkup_wordless hown
      obtain ⟨blank', hblank', heq'⟩ := exists_ownMarkup_wordless hown'
      rw [hwordless, hblank'] at hblank
      obtain rfl := Except.ok.inj hblank
      rw [heq, heq']
    -- and so do its children, one by one
    have hchildren : (groups.flatMap fun tree => tags tree.pieces) =
        groups'.flatMap fun tree => tags tree.pieces := by
      have hmap : box.children.map wordless = box'.children.map wordless := by
        rw [← children_wordless, hwordless, children_wordless]
      obtain ⟨pairs, hpairs, rfl, hall⟩ := exists_pairs_of_mapM_eq_ok hgroups
      obtain ⟨pairs', hpairs', rfl, hall'⟩ := exists_pairs_of_mapM_eq_ok hgroups'
      rw [← hpairs, ← hpairs', List.map_map, List.map_map] at hmap
      rw [List.flatMap_map, List.flatMap_map]
      refine flatMap_eq_flatMap_of_map_eq hmap fun pair hpair pair' hpair' hlook => ?_
      have hmem : pair.1 ∈ box.children := hpairs ▸ List.mem_map_of_mem hpair
      exact ih pair.1 hmem hlook (hall pair hpair) (hall' pair' hpair')
    rw [Markup.tags_pieces_element, Markup.tags_pieces_element, hattributes, hframe]
    simp only [List.flatMap_append, hsame, hchildren]

end Box

/-! ### Contents of groups -/

/-- The contents of a caption: where it leads to, if it is a link, and its text. -/
def captionContents (caption : LabelKind × String) : List Content :=
  (if Box.isLinked caption.1 then [.link ("#" ++ caption.2)] else []) ++ [.label caption.2]

theorem tells_tracks (radius : Int) (connectors : List Connector) :
    Tells ((connectors.map (·.toMarkup radius)).flatMap Markup.pieces) [] := by
  have h : Tells ((connectors.map (·.toMarkup radius)).flatMap Markup.pieces)
      ((connectors.map (·.toMarkup radius)).flatMap fun _ => []) :=
    Tells.flatMap (List.forall_mem_map.mpr fun _ _ => Tells.leaf (by decide) _)
  rwa [List.flatMap_eq_nil_iff.mpr fun _ _ => rfl] at h

namespace Box

variable {m : Metrics} {theme : Theme}

/-- The text of a label tells itself. -/
theorem tells_labelText (x y : Number) (text : String) :
    Tells (labelText x y text).pieces [.label text] := by
  have htext : (if text.isEmpty then [] else [Markup.text text]).flatMap Markup.pieces =
      (Markup.escapeText text).toList.map .char := by
    split_ifs with hempty
    · obtain rfl := String.isEmpty_iff.mp hempty
      rfl
    · rw [List.flatMap_singleton, Markup.pieces]
  have hline : (if Markup.opensLine "text" then [Markup.Piece.char '\n'] else []) = [] :=
    if_neg (by decide)
  have hrun := Tells.run "text" ((Markup.sortAttributes [("x", .number x), ("y", .number y)]).map
    Markup.writtenField) (Markup.escapeText text).toList
  rw [Markup.told_text, Markup.decoded_escapeText] at hrun
  rw [labelText, Markup.withText, Markup.pieces, Markup.piecesAll_eq_flatMap, htext, hline]
  exact hrun

/-- A link tells where it leads to and then its text. -/
theorem tells_labelLink (x y : Number) (text : String) :
    Tells (labelLink x y text).pieces [.link ("#" ++ text), .label text] := by
  have htarget : Markup.fieldText "xlink:href"
      [("xlink:href", Markup.escapeAttribute ("#" ++ text))] = "#" ++ text :=
    Markup.decoded_escapeAttribute _
  have hlabel : Tells ([labelText x y text].flatMap Markup.pieces) [.label text] := by
    rw [List.flatMap_singleton]
    exact tells_labelText x y text
  have hall : Tells (labelLink x y text).pieces ([.link ("#" ++ text)] ++ [.label text]) := by
    refine Tells.element (fun blank hblank => ?_) hlabel
    rw [Markup.told_a, hblank]
    exact congrArg (fun target => [Content.link target]) htarget
  exact hall

/-- What a box draws itself tells its caption. -/
theorem tells_own {box : Box Placement} {own : List Markup} (h : box.ownMarkup theme = .ok own) :
    Tells (own.flatMap Markup.pieces) (box.caption?.toList.flatMap captionContents) := by
  cases box with
  | label frame kind text =>
    obtain ⟨x, y, -, -, rfl⟩ := exists_of_labelMarkup h
    have hrectangle : Tells (labelRectangle frame kind).pieces [] := Tells.leaf (by decide) _
    rw [List.flatMap_cons, List.flatMap_singleton, caption?, Option.toList_some,
      List.flatMap_singleton, captionContents]
    by_cases hlinked : isLinked kind = true
    · rw [if_pos hlinked, if_pos hlinked]
      exact hrectangle.append (tells_labelLink x y text)
    · rw [if_neg hlinked, if_neg hlinked]
      exact hrectangle.append (tells_labelText x y text)
  | _ =>
    obtain rfl := Except.ok.inj h
    exact .nil

/-- The contents of a box are its captions, in order. -/
theorem tells_toMarkup {box : Box Placement} {tree : Markup} (h : box.toMarkup m theme = .ok tree) :
    Tells tree.pieces (box.captions.flatMap captionContents) := by
  induction box using Box.induction generalizing tree with
  | step box ih =>
    obtain ⟨own, groups, hown, hgroups, rfl⟩ := exists_of_toMarkup h
    have hchildren : Tells (groups.flatMap Markup.pieces)
        (box.children.flatMap fun child => child.captions.flatMap captionContents) := by
      obtain ⟨pairs, hpairs, rfl, hall⟩ := exists_pairs_of_mapM_eq_ok hgroups
      rw [← hpairs, List.flatMap_map, List.flatMap_map]
      refine Tells.flatMap fun pair hpair => ?_
      have hmem : pair.1 ∈ box.children := hpairs ▸ List.mem_map_of_mem hpair
      exact ih pair.1 hmem (hall pair hpair)
    refine Tells.plain (by decide) ?_
    rw [List.flatMap_append, List.flatMap_append, captions_eq_append, List.flatMap_append,
      List.flatMap_assoc, ← List.append_nil (box.caption?.toList.flatMap captionContents)]
    exact ((tells_own hown).append (tells_tracks _ _)).append hchildren

end Box

namespace Drawing

variable {m : Metrics} {theme : Theme} {d : Drawing}

/-- The contents of a figure are the captions of its boxes, in order. -/
theorem tells_figure {tree : Markup} (h : d.figure m theme = .ok tree) :
    Tells tree.pieces (d.diagram.root.captions.flatMap captionContents) := by
  obtain ⟨content, hcontent, rfl⟩ := exists_of_figure h
  obtain ⟨root, hroot, rfl⟩ := exists_of_content hcontent
  have hmarker (x y : Int) : Tells (terminusMarker x y).pieces [] := Tells.leaf (by decide) _
  refine Tells.plain (by decide) ?_
  rw [List.flatMap_singleton]
  refine Tells.plain (by decide) ?_
  have hroot := (Box.tells_toMarkup hroot).append (hmarker (d.finish.1 - 10) d.finish.2)
  have htermini := tells_tracks m.arcRadius d.termini
  have hall := ((hmarker d.start.1 d.start.2).append htermini).append hroot
  rw [List.append_nil] at hall
  simpa using hall

end Drawing

end SyntaxDiagram
