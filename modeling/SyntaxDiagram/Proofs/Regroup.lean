import SyntaxDiagram.Proofs.Box.Alike
import SyntaxDiagram.Proofs.Entry.Normal
import SyntaxDiagram.Proofs.Geometry.Containment
import Mathlib.Logic.Relation

/-!
# Grouping does not change the picture

Elements are regrouped step by step: one is wrapped in a sequence of its own, or a sequence in a
sequence gives way to its items (`Element.Regroups`).  The boxes of the two elements are alike
(`Element.Regroups.exists_toBox`), and so the layouts of an entry and of any that it is regrouped
into look the same (`Entry.exists_layout_of_regroups`).
-/

namespace SyntaxDiagram

/-! ### Regrouping -/

namespace Element

/-- One step of regrouping: an element is wrapped in a sequence, a sequence in a sequence gives way
to its items, or such a step is made in a part. -/
inductive Regroups : Element → Element → Prop
  | wrap (element : Element) : Regroups element (.sequence [element])
  | splice (before inner after : List Element) :
    Regroups (.sequence (before ++ .sequence inner :: after))
      (.sequence (before ++ inner ++ after))
  | sequence (before after : List Element) {item item' : Element} (step : Regroups item item') :
    Regroups (.sequence (before ++ item :: after)) (.sequence (before ++ item' :: after))
  | alternation (before after : List Element) {branch branch' : Element}
    (step : Regroups branch branch') :
    Regroups (.alternation (before ++ branch :: after)) (.alternation (before ++ branch' :: after))
  | quantified (quantifier : Quantifier) {item item' : Element} (step : Regroups item item') :
    Regroups (.quantified item quantifier) (.quantified item' quantifier)

/-- One step of regrouping in an alternative. -/
inductive RegroupsAll : List Element → List Element → Prop
  | splice (before inner after : List Element) :
    RegroupsAll (before ++ .sequence inner :: after) (before ++ inner ++ after)
  | item (before after : List Element) {item item' : Element} (step : Regroups item item') :
    RegroupsAll (before ++ item :: after) (before ++ item' :: after)

end Element

/-- One step of regrouping in one of the alternatives of an entry. -/
inductive Entry.Regroups : Entry → Entry → Prop
  | alternative (kind : EntryKind) (identifier documentation : String)
    (before after : List (List Element)) {alternative alternative' : List Element}
    (step : Element.RegroupsAll alternative alternative') :
    Regroups ⟨kind, identifier, documentation, before ++ alternative :: after⟩
      ⟨kind, identifier, documentation, before ++ alternative' :: after⟩

namespace Element

/-! ### Normal forms -/

/-- What holds of all items of a list still holds when one is replaced by another for which it
holds. -/
theorem forall_mem_replace {P : Element → Prop} {before after : List Element}
    {item item' : Element} (h : ∀ x ∈ before ++ item :: after, P x) (hitem : P item → P item') :
    ∀ x ∈ before ++ item' :: after, P x := by
  rw [List.forall_mem_append, List.forall_mem_cons] at h ⊢
  exact ⟨h.1, hitem h.2.1, h.2.2⟩

theorem Normal.forall_mem_sequence {items : List Element} (h : (Element.sequence items).Normal) :
    items ≠ [] ∧ ∀ item ∈ items, item.Normal := by
  cases h with
  | sequence nonempty normal => exact ⟨nonempty, normal⟩

/-- Items in normal form stay so when a sequence among them gives way to its items. -/
theorem normal_splice {before inner after : List Element}
    (h : ∀ x ∈ before ++ sequence inner :: after, x.Normal) :
    ∀ x ∈ before ++ inner ++ after, x.Normal := by
  rw [List.forall_mem_append, List.forall_mem_cons] at h
  rw [List.forall_mem_append, List.forall_mem_append]
  exact ⟨⟨h.1, h.2.1.forall_mem_sequence.2⟩, h.2.2⟩

namespace Regroups

variable {element element' : Element}

/-- A regrouped sequence is a sequence. -/
theorem exists_sequence (h : Regroups element element') {items : List Element}
    (hitems : element = .sequence items) : ∃ items', element' = .sequence items' := by
  cases h with
  | wrap => exact ⟨_, rfl⟩
  | splice => exact ⟨_, rfl⟩
  | sequence => exact ⟨_, rfl⟩
  | alternation => exact absurd hitems (by simp)
  | quantified => exact absurd hitems (by simp)

/-- A regrouped element is under the quantifier that it was under. -/
theorem exists_quantified {inner : Element} {quantifier : Quantifier}
    (h : Regroups element (.quantified inner quantifier)) :
    ∃ inner', element = .quantified inner' quantifier := by
  cases h with
  | quantified => exact ⟨_, rfl⟩

/-- Regrouping keeps normal form. -/
theorem normal (h : Regroups element element') (hnormal : element.Normal) : element'.Normal := by
  induction h with
  | wrap element =>
    exact .sequence (List.cons_ne_nil element []) (List.forall_mem_singleton.mpr hnormal)
  | splice before inner after =>
    have hitems := hnormal.forall_mem_sequence.2
    have hinner := (hitems (.sequence inner) (by simp)).forall_mem_sequence
    exact .sequence (by simp [hinner.1]) (normal_splice hitems)
  | sequence before after step ih =>
    exact .sequence (by simp) (forall_mem_replace hnormal.forall_mem_sequence.2 ih)
  | alternation before after step ih =>
    cases hnormal with
    | alternation nonempty sequences normal =>
      refine .alternation (by simp) (forall_mem_replace sequences ?_)
        (forall_mem_replace normal ih)
      rintro ⟨items, hitems⟩
      exact step.exists_sequence hitems
  | quantified quantifier step ih =>
    cases hnormal with
    | quantified settled normal =>
      -- a quantifier over a quantifier was settled before the step, and still is
      refine .quantified (fun inner quantifier' heq => ?_) (ih normal)
      subst heq
      obtain ⟨inner', hinner⟩ := step.exists_quantified
      exact settled inner' quantifier' hinner

end Regroups

/-- Regrouping an alternative keeps its items in normal form. -/
theorem RegroupsAll.normal {items items' : List Element} (h : RegroupsAll items items')
    (hnormal : ∀ item ∈ items, item.Normal) : ∀ item ∈ items', item.Normal := by
  cases h with
  | splice before inner after => exact normal_splice hnormal
  | item before after step => exact forall_mem_replace hnormal step.normal

/-! ### Boxes -/

variable {m : Metrics} {measure : Measure}

theorem plain_of_measured {kind : LabelKind} {text : String} {box : Box Unit}
    (h : Box.measured m measure kind text = .ok box) : box.Plain m := by
  rw [Box.measured, bind_eq_ok_iff] at h
  obtain ⟨textWidth, -, h⟩ := h
  obtain rfl := pure_eq_ok_iff.mp h
  exact Box.plain_ofLabel kind text textWidth

/-- What a quantifier makes of any item is plain. -/
theorem plain_of_quantifiedBox {item box : Box Unit} {quantifier : Quantifier}
    (h : quantifiedBox m item quantifier = .ok box) : box.Plain m := by
  cases quantifier with
  | optional =>
    obtain rfl := Except.ok.inj h
    exact Box.plain_stacked ..
  | star =>
    obtain rfl := Except.ok.inj h
    exact Box.plain_stacked ..
  | plus =>
    obtain rfl := Except.ok.inj h
    exact Box.plain_repeated item
  | unknown mark => exact absurd h (by simp [quantifiedBox])

/-- The box of an element in normal form is no bare track. -/
theorem plain_of_toBox {element : Element} (hnormal : element.Normal) {box : Box Unit}
    (h : element.toBox m measure = .ok box) : box.Plain m := by
  cases hnormal with
  | literal text => exact plain_of_measured h
  | reference identifier kind => exact plain_of_measured h
  | sequence nonempty normal =>
    obtain ⟨boxes, hboxes, rfl⟩ := toBox_sequence_eq_ok_iff.mp h
    exact Box.plain_ofItems (ne_nil_of_mapM_eq_ok hboxes nonempty)
  | alternation nonempty sequences normal =>
    obtain ⟨boxes, -, h⟩ := toBox_alternation_eq_ok_iff.mp h
    obtain ⟨main, below, -, rfl⟩ := ofBranches_zero_eq_ok_iff.mp h
    exact Box.plain_stacked ..
  | quantified settled normal =>
    obtain ⟨item, -, h⟩ := toBox_quantified_eq_ok_iff.mp h
    exact plain_of_quantifiedBox h
  | foreign name => exact absurd h (by simp [toBox])

/-- Boxes that are alike are quantified alike. -/
theorem exists_quantifiedBox {item item' box : Box Unit} {quantifier : Quantifier}
    (hitem : item.Alike m item') (h : quantifiedBox m item quantifier = .ok box) :
    ∃ box', quantifiedBox m item' quantifier = .ok box' ∧ box.Alike m box' := by
  have hbypass : List.Forall₂ (Box.Alike m) [bypassTrack m] [bypassTrack m] :=
    .cons (.refl _) .nil
  cases quantifier with
  | optional =>
    obtain rfl := Except.ok.inj h
    exact ⟨_, rfl, .stacked hbypass hitem .nil⟩
  | star =>
    obtain rfl := Except.ok.inj h
    exact ⟨_, rfl, .stacked hbypass hitem.repeated .nil⟩
  | plus =>
    obtain rfl := Except.ok.inj h
    exact ⟨_, rfl, hitem.repeated⟩
  | unknown mark => exact absurd h (by simp [quantifiedBox])

/-- The line of some elements is like it was when a sequence among them gives way to its items. -/
theorem exists_boxes_splice {before inner after : List Element} (hinner : inner ≠ [])
    {boxes : List (Box Unit)}
    (h : (before ++ .sequence inner :: after).mapM (toBox m measure) = .ok boxes) :
    ∃ boxes', (before ++ inner ++ after).mapM (toBox m measure) = .ok boxes' ∧
      (Box.ofItems m .line boxes).Alike m (.ofItems m .line boxes') := by
  obtain ⟨bs, _, hbs, hrest, rfl⟩ := mapM_append_eq_ok_iff.mp h
  obtain ⟨b, cs, hb, hcs, rfl⟩ := mapM_cons_eq_ok_iff.mp hrest
  obtain ⟨items, hitems, rfl⟩ := toBox_sequence_eq_ok_iff.mp hb
  refine ⟨bs ++ items ++ cs, ?_, Box.alike_splice bs (ne_nil_of_mapM_eq_ok hitems hinner) cs⟩
  exact mapM_append_eq_ok_iff.mpr
    ⟨bs ++ items, cs, mapM_append_eq_ok_iff.mpr ⟨bs, items, hbs, hitems, rfl⟩, hcs, rfl⟩

/-- The box of a regrouped element is like that of the element. -/
theorem Regroups.exists_toBox {element element' : Element} (h : Regroups element element')
    (hnormal : element.Normal) {box : Box Unit} (hbox : element.toBox m measure = .ok box) :
    ∃ box', element'.toBox m measure = .ok box' ∧ box.Alike m box' := by
  induction h generalizing box with
  | wrap element =>
    refine ⟨.ofItems m .line [box], ?_, (plain_of_toBox hnormal hbox).alike_ofItems⟩
    simp only [toBox, toBoxes, hbox]
    rfl
  | splice before inner after =>
    have hinner := (hnormal.forall_mem_sequence.2 (.sequence inner) (by simp)).forall_mem_sequence
    obtain ⟨boxes, hboxes, rfl⟩ := toBox_sequence_eq_ok_iff.mp hbox
    obtain ⟨boxes', hboxes', halike⟩ := exists_boxes_splice hinner.1 hboxes
    exact ⟨_, toBox_sequence_eq_ok_iff.mpr ⟨boxes', hboxes', rfl⟩, halike⟩
  | sequence before after step ih =>
    have hitem := hnormal.forall_mem_sequence.2 _ (List.mem_append_right _ (List.mem_cons_self ..))
    obtain ⟨boxes, hboxes, rfl⟩ := toBox_sequence_eq_ok_iff.mp hbox
    obtain ⟨boxes', hboxes', halike⟩ :=
      exists_mapM_replace Box.Alike.refl (fun _ => ih hitem) hboxes
    exact ⟨_, toBox_sequence_eq_ok_iff.mpr ⟨boxes', hboxes', rfl⟩, .ofItems halike⟩
  | alternation before after step ih =>
    cases hnormal with
    | alternation nonempty sequences normal =>
      have hbranch := normal _ (List.mem_append_right _ (List.mem_cons_self ..))
      obtain ⟨boxes, hboxes, hbox⟩ := toBox_alternation_eq_ok_iff.mp hbox
      obtain ⟨main, below, rfl, rfl⟩ := ofBranches_zero_eq_ok_iff.mp hbox
      obtain ⟨boxes', hboxes', halike⟩ :=
        exists_mapM_replace Box.Alike.refl (fun _ => ih hbranch) hboxes
      obtain ⟨main', below', hmain, hbelow, rfl⟩ := List.forall₂_cons_left_iff.mp halike
      refine ⟨.stacked m [] main' below', ?_, .stacked .nil hmain hbelow⟩
      exact toBox_alternation_eq_ok_iff.mpr
        ⟨main' :: below', hboxes', ofBranches_zero_eq_ok_iff.mpr ⟨main', below', rfl, rfl⟩⟩
  | quantified quantifier step ih =>
    cases hnormal with
    | quantified settled normal =>
      obtain ⟨item, hitem, hbox⟩ := toBox_quantified_eq_ok_iff.mp hbox
      obtain ⟨item', hitem', halike⟩ := ih normal hitem
      obtain ⟨box', hbox', halike'⟩ := exists_quantifiedBox halike hbox
      exact ⟨box', toBox_quantified_eq_ok_iff.mpr ⟨item', hitem', hbox'⟩, halike'⟩

/-- The line of a regrouped alternative is like that of the alternative. -/
theorem RegroupsAll.exists_line {items items' : List Element} (h : RegroupsAll items items')
    (hnormal : ∀ item ∈ items, item.Normal) {line : Box Unit}
    (hline : (do return Box.ofItems m .line (← toBoxes m measure items)) = Except.ok line) :
    ∃ line', (do return Box.ofItems m .line (← toBoxes m measure items')) = Except.ok line' ∧
      line.Alike m line' := by
  obtain ⟨boxes, hboxes, rfl⟩ := line_eq_ok_iff.mp hline
  cases h with
  | splice before inner after =>
    have hinner := (hnormal (.sequence inner) (by simp)).forall_mem_sequence
    obtain ⟨boxes', hboxes', halike⟩ := exists_boxes_splice hinner.1 hboxes
    exact ⟨_, line_eq_ok_iff.mpr ⟨boxes', hboxes', rfl⟩, halike⟩
  | @item before after item item' step =>
    have hitem := hnormal item (by simp)
    obtain ⟨boxes', hboxes', halike⟩ :=
      exists_mapM_replace Box.Alike.refl (fun _ => step.exists_toBox hitem) hboxes
    exact ⟨_, line_eq_ok_iff.mpr ⟨boxes', hboxes', rfl⟩, .ofItems halike⟩

end Element

/-! ### Entries -/

variable {m : Metrics} {measure : Measure} {entry entry' : Entry}

/-- The box of alternatives is like that of others when their lines are alike one by one. -/
theorem exists_alternativesBox {before after : List (List Element)}
    {alternative alternative' : List Element}
    (h : ∀ line,
      (do return Box.ofItems m .line (← Element.toBoxes m measure alternative)) = Except.ok line →
        ∃ line', (do return Box.ofItems m .line (← Element.toBoxes m measure alternative')) =
          Except.ok line' ∧ line.Alike m line') {box : Box Unit}
    (hbox : alternativesBox m measure (before ++ alternative :: after) = .ok box) :
    ∃ box', alternativesBox m measure (before ++ alternative' :: after) = .ok box' ∧
      box.Alike m box' := by
  rw [alternativesBox, bind_eq_ok_iff] at hbox
  obtain ⟨lines, hlines, hbox⟩ := hbox
  obtain ⟨lines', hlines', halike⟩ := exists_mapM_replace Box.Alike.refl h hlines
  rw [alternativesBox, hlines']
  -- nothing, a single line, or a branch of several
  cases halike with
  | nil => exact ⟨box, hbox, .refl box⟩
  | cons hfirst hrest =>
    cases hrest with
    | nil =>
      obtain rfl := pure_eq_ok_iff.mp hbox
      exact ⟨_, rfl, hfirst⟩
    | cons hsecond hothers =>
      obtain rfl := pure_eq_ok_iff.mp hbox
      exact ⟨_, rfl, .stacked .nil hfirst (.cons hsecond hothers)⟩

/-- Two drawings look the same: they are of the same size, start and end at the same points, and
have the same labels in the same order and the same connectors. -/
structure Drawing.LooksLike (d d' : Drawing) : Prop where
  width_eq : d.diagram.width = d'.diagram.width
  height_eq : d.diagram.height = d'.diagram.height
  start_eq : d.start = d'.start
  finish_eq : d.finish = d'.finish
  signs_eq : d.boxes.filterMap Box.sign? = d'.boxes.filterMap Box.sign?
  connectors_perm : d.connectors.Perm d'.connectors

/-- Diagrams whose roots are alike look the same when they are drawn. -/
theorem Diagram.looksLike_draw {root root' : Box Unit} (h : root.Alike m root') (padding : Int) :
    ((ofBox m entry root padding).draw m).LooksLike ((ofBox m entry' root' padding).draw m) := by
  have hpicture : ((ofBox m entry root padding).draw m).diagram.root.picture =
      ((ofBox m entry' root' padding).draw m).diagram.root.picture := by
    simp only [draw, withRoot, ofBox, h.width_eq, h.up_eq, h.picture_eq]
  refine ⟨?_, ?_, ?_, ?_, ?_, ?_⟩
  · simp only [draw, withRoot, ofBox, h.width_eq]
  · simp only [draw, withRoot, ofBox, h.up_eq, h.down_eq]
  · simp only [draw, ofBox, h.up_eq]
  · simp only [draw, ofBox, h.width_eq, h.up_eq]
  · rw [Drawing.boxes, Drawing.boxes, ← Box.signs_picture, hpicture, Box.signs_picture]
  · have htermini : ((ofBox m entry root padding).draw m).termini =
        ((ofBox m entry' root' padding).draw m).termini := by
      simp only [draw, ofBox, h.width_eq, h.up_eq]
    rw [Drawing.connectors, Drawing.connectors, htermini]
    refine List.Perm.append_left _ (Multiset.coe_eq_coe.mp ?_)
    rw [← Box.tracks_picture, hpicture, Box.tracks_picture]

/-- Regrouping an entry keeps its elements in normal form. -/
theorem Entry.Regroups.normal (h : entry.Regroups entry')
    (hnormal : ∀ alternative ∈ entry.alternatives, ∀ element ∈ alternative, element.Normal) :
    ∀ alternative ∈ entry'.alternatives, ∀ element ∈ alternative, element.Normal := by
  cases h with
  | alternative kind identifier documentation before after step =>
    rw [List.forall_mem_append, List.forall_mem_cons] at hnormal ⊢
    exact ⟨hnormal.1, step.normal hnormal.2.1, hnormal.2.2⟩

/-- The box of a regrouped entry is like that of the entry. -/
theorem Entry.Regroups.exists_box (h : entry.Regroups entry')
    (hnormal : ∀ alternative ∈ entry.alternatives, ∀ element ∈ alternative, element.Normal)
    {box : Box Unit} (hbox : alternativesBox m measure entry.alternatives = .ok box) :
    ∃ box', alternativesBox m measure entry'.alternatives = .ok box' ∧ box.Alike m box' := by
  cases h with
  | @alternative kind identifier documentation before after alternative alternative' step =>
    have halternative := hnormal alternative (by simp)
    exact exists_alternativesBox (fun _ => step.exists_line halternative) hbox

/-- However an entry in normal form is regrouped, it can be laid out as before, and the two drawings
look the same. -/
theorem Entry.exists_layout_of_regroups (hnormal : entry.Normal)
    (h : Relation.ReflTransGen Entry.Regroups entry entry') {d : Drawing}
    (hd : entry.layout m measure = .ok d) :
    ∃ d', entry'.layout m measure = .ok d' ∧ d.LooksLike d' := by
  obtain ⟨box, hbox, rfl⟩ := exists_box_of_layout hd
  -- along the steps, the elements stay in normal form and the boxes alike
  have hsteps : (∀ alternative ∈ entry'.alternatives, ∀ element ∈ alternative, element.Normal) ∧
      ∃ box', alternativesBox m measure entry'.alternatives = .ok box' ∧ box.Alike m box' := by
    clear hd
    induction h with
    | refl => exact ⟨hnormal.normal, box, hbox, .refl box⟩
    | tail _ step ih =>
      obtain ⟨hnext, box', hbox', halike⟩ := ih
      obtain ⟨box'', hbox'', halike'⟩ := step.exists_box hnext hbox'
      exact ⟨step.normal hnext, box'', hbox'', halike.trans halike'⟩
  obtain ⟨-, box', hbox', halike⟩ := hsteps
  refine ⟨(Diagram.ofBox m entry' box' Diagram.standardPadding).draw m, ?_,
    Diagram.looksLike_draw halike Diagram.standardPadding⟩
  rw [layout, hbox']
  rfl

/-- In a rule the sequence around another one gives way to its items, and then a repeated item is
wrapped in a sequence. -/
theorem Entry.exists_layout_of_regroups_sample :
    let entry : Entry :=
      ⟨.rule, "list", "", [[.sequence [.literal "a", .sequence [.literal "b", .literal "c"]],
        .quantified (.literal "d") .star]]⟩
    let entry' : Entry :=
      ⟨.rule, "list", "", [[.literal "a", .sequence [.literal "b", .literal "c"],
        .quantified (.sequence [.literal "d"]) .star]]⟩
    entry.Normal ∧ Relation.ReflTransGen Entry.Regroups entry entry' ∧
      ∃ d, entry.layout .standard (.const (some (.int 9))) = .ok d ∧
        ∃ d', entry'.layout .standard (.const (some (.int 9))) = .ok d' ∧ d.LooksLike d' := by
  intro entry entry'
  -- the rule is what the builders make of its description
  let node : EntryNode :=
    ⟨.rule, "list", "", [[.sequence [.literal "a", .sequence [.literal "b", .literal "c"]],
      .quantified (.literal "d") .star]]⟩
  have hbuild : node.build = .ok entry := rfl
  have hnormal : entry.Normal := EntryNode.normal_of_build hbuild
  have hsplice := Entry.Regroups.alternative .rule "list" "" [] [] (.splice []
    [.literal "a", .sequence [.literal "b", .literal "c"]] [.quantified (.literal "d") .star])
  have hwrap := Entry.Regroups.alternative .rule "list" "" [] [] (.item
    [.literal "a", .sequence [.literal "b", .literal "c"]] []
    (.quantified .star (.wrap (.literal "d"))))
  have hsteps : Relation.ReflTransGen Entry.Regroups entry entry' := .tail (.single hsplice) hwrap
  have hlayout : entry.layout .standard (.const (some (.int 9))) = .ok _ := rfl
  exact ⟨hnormal, hsteps, _, hlayout, exists_layout_of_regroups hnormal hsteps hlayout⟩

end SyntaxDiagram
