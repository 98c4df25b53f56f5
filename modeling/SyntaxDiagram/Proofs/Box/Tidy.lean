import SyntaxDiagram.Proofs.Box.Built
import SyntaxDiagram.Proofs.Box.Placing
import SyntaxDiagram.Proofs.Number

/-!
# Notes and roles

Besides its captions a drawing shows the notes of its boxes and the roles of its connectors.  Layout
makes them up itself, and no angle bracket is among what it uses (`Entry.neat_layout`).
-/

namespace SyntaxDiagram

/-! ### All boxes of a layout -/

/-- A property of what the builders make in a layout, whatever they make it from. -/
structure Box.OfBuilders (m : Metrics) (P : Box Unit → Prop) : Prop where
  label : ∀ kind text textWidth, P (.ofLabel m kind text textWidth)
  line : ∀ role ∈ [Role.line, .bypass], ∀ items, P (.ofItems m role items)
  stacked : ∀ above main below, P (.stacked m above main below)
  repeated : ∀ item, P (.repeated m item)

namespace Box.OfBuilders

variable {m : Metrics} {P : Box Unit → Prop} {measure : Measure}

/-- The line case: what the builders give holds of a line over items of which it holds. -/
theorem forall_mem_ofItems (h : OfBuilders m P) {role : Role} (hrole : role ∈ [Role.line, .bypass])
    {items : List (Box Unit)} (hitems : ∀ item ∈ items, ∀ box ∈ item.boxes, P box) :
    ∀ box ∈ (ofItems m role items).boxes, P box := by
  rw [boxes_eq_cons, List.forall_mem_cons, children_ofItems, List.forall_mem_flatMap]
  exact ⟨h.line role hrole items, hitems⟩

/-- The branch case, over the items above, on and below its main track. -/
theorem forall_mem_stacked (h : OfBuilders m P) {above : List (Box Unit)} {main : Box Unit}
    {below : List (Box Unit)}
    (hitems : ∀ item ∈ above ++ main :: below, ∀ box ∈ item.boxes, P box) :
    ∀ box ∈ (Box.stacked m above main below).boxes, P box := by
  have hchildren : (Box.stacked m above main below).children = above ++ main :: below := rfl
  rw [boxes_eq_cons, List.forall_mem_cons, hchildren, List.forall_mem_flatMap]
  exact ⟨h.stacked above main below, hitems⟩

/-- The loop case. -/
theorem forall_mem_repeated (h : OfBuilders m P) {item : Box Unit}
    (hitem : ∀ box ∈ item.boxes, P box) : ∀ box ∈ (Box.repeated m item).boxes, P box := by
  have hchildren : (Box.repeated m item).children = [item] := rfl
  rw [boxes_eq_cons, List.forall_mem_cons, hchildren, List.flatMap_singleton]
  exact ⟨h.repeated item, hitem⟩

/-- The label case, for a label that has a width. -/
theorem forall_mem_of_measured (h : OfBuilders m P) {kind : LabelKind} {text : String}
    {box : Box Unit} (hbox : measured m measure kind text = .ok box) : ∀ b ∈ box.boxes, P b := by
  rw [measured, bind_eq_ok_iff] at hbox
  obtain ⟨textWidth, -, hbox⟩ := hbox
  obtain rfl := pure_eq_ok_iff.mp hbox
  exact List.forall_mem_singleton.mpr (h.label kind text textWidth)

/-- A list of alternatives becomes a branch or one of its own items. -/
theorem forall_mem_of_ofBranches (h : OfBuilders m P) {mainIndex : Int} {items : List (Box Unit)}
    (hitems : ∀ item ∈ items, ∀ box ∈ item.boxes, P box) {box : Box Unit}
    (hbox : ofBranches m mainIndex items = .ok box) : ∀ b ∈ box.boxes, P b := by
  unfold ofBranches at hbox
  split_ifs at hbox with hneg
  split at hbox
  · exact absurd hbox (by simp)
  · rename_i main below hdrop
    obtain rfl := Except.ok.inj hbox
    refine h.forall_mem_stacked fun item hitem => hitems item ?_
    rwa [← List.take_append_drop mainIndex.toNat items, hdrop]

/-- A quantified item becomes a loop, a bypass or both, by its quantifier. -/
theorem forall_mem_of_quantifiedBox (h : OfBuilders m P) {item box : Box Unit}
    {quantifier : Quantifier} (hitem : ∀ b ∈ item.boxes, P b)
    (hbox : Element.quantifiedBox m item quantifier = .ok box) : ∀ b ∈ box.boxes, P b := by
  have hbypass : ∀ b ∈ (Element.bypassTrack m).boxes, P b :=
    h.forall_mem_ofItems (by decide) fun _ hitem => absurd hitem List.not_mem_nil
  cases quantifier with
  | optional =>
    obtain rfl := Except.ok.inj hbox
    exact h.forall_mem_stacked
      (List.forall_mem_cons.mpr ⟨hbypass, List.forall_mem_singleton.mpr hitem⟩)
  | star =>
    obtain rfl := Except.ok.inj hbox
    exact h.forall_mem_stacked (List.forall_mem_cons.mpr
      ⟨hbypass, List.forall_mem_singleton.mpr (h.forall_mem_repeated hitem)⟩)
  | plus =>
    obtain rfl := Except.ok.inj hbox
    exact h.forall_mem_repeated hitem
  | unknown mark => exact absurd hbox (by simp [Element.quantifiedBox])

/-- What the builders give holds of every box an element is laid out as. -/
theorem forall_mem_of_toBox (h : OfBuilders m P) {element : Element} {box : Box Unit}
    (hbox : element.toBox m measure = .ok box) : ∀ b ∈ box.boxes, P b := by
  induction element generalizing box with
  | literal text => exact h.forall_mem_of_measured hbox
  | reference identifier kind => exact h.forall_mem_of_measured hbox
  | sequence items ih =>
    obtain ⟨boxes, hboxes, rfl⟩ := Element.toBox_sequence_eq_ok_iff.mp hbox
    refine h.forall_mem_ofItems (by decide) fun item hitem => ?_
    obtain ⟨element, helement, hitem⟩ := exists_of_mem_of_mapM_eq_ok hboxes hitem
    exact ih element helement hitem
  | alternation branches ih =>
    obtain ⟨boxes, hboxes, hbox⟩ := Element.toBox_alternation_eq_ok_iff.mp hbox
    refine h.forall_mem_of_ofBranches (fun item hitem => ?_) hbox
    obtain ⟨element, helement, hitem⟩ := exists_of_mem_of_mapM_eq_ok hboxes hitem
    exact ih element helement hitem
  | quantified item quantifier ih =>
    obtain ⟨inner, hinner, hbox⟩ := Element.toBox_quantified_eq_ok_iff.mp hbox
    exact h.forall_mem_of_quantifiedBox (ih hinner) hbox
  | foreign name => exact absurd hbox (by simp [Element.toBox])

/-- What the builders give holds of every box a production is laid out as. -/
theorem forall_mem_of_alternativesBox (h : OfBuilders m P) {alternatives : List (List Element)}
    {box : Box Unit} (hbox : alternativesBox m measure alternatives = .ok box) :
    ∀ b ∈ box.boxes, P b := by
  rw [alternativesBox, bind_eq_ok_iff] at hbox
  obtain ⟨lines, hlines, hbox⟩ := hbox
  have hall : ∀ line ∈ lines, ∀ b ∈ line.boxes, P b := by
    intro line hline
    obtain ⟨alternative, -, hline⟩ := exists_of_mem_of_mapM_eq_ok hlines hline
    obtain ⟨items, hitems, rfl⟩ := Element.line_eq_ok_iff.mp hline
    refine h.forall_mem_ofItems (by decide) fun item hitem => ?_
    obtain ⟨element, -, hitem⟩ := exists_of_mem_of_mapM_eq_ok hitems hitem
    exact h.forall_mem_of_toBox hitem
  -- nothing, a single line, or a branch of several
  rcases lines with _ | ⟨first, _ | ⟨second, rest⟩⟩
  · obtain rfl := pure_eq_ok_iff.mp hbox
    exact h.forall_mem_ofItems (by decide) fun _ hitem => absurd hitem List.not_mem_nil
  · obtain rfl := pure_eq_ok_iff.mp hbox
    exact hall first (List.mem_cons_self ..)
  · obtain rfl := pure_eq_ok_iff.mp hbox
    exact h.forall_mem_stacked hall

end Box.OfBuilders

namespace Box

/-! ### Notes and roles of boxes -/

section

variable {α : Type} {m : Metrics}

/-- The role of a line; that of other boxes is plain. -/
def lineRole : Box α → Role
  | .line _ role _ => role
  | _ => .line

/-- The note and the role of a box have no angle bracket. -/
structure Tidy (box : Box α) : Prop where
  note : ∀ note ∈ box.frame.note, '<' ∉ note.toList
  role : '<' ∉ box.lineRole.name.toList

/-- A note of sizes has no opening angle bracket, when the name in it has none. -/
theorem angle_notMem_sizeNote {className : String} (hname : '<' ∉ className.toList)
    (width up down : Int) : ∀ note ∈ sizeNote m className width up down, '<' ∉ note.toList := by
  have hnumber (n : Int) : '<' ∉ (toString n).toList := notMem_toString (by decide) n
  unfold sizeNote
  split
  · rintro note ⟨⟩
    refine notMem_toList_append ?_ (hnumber down)
    refine notMem_toList_append ?_ (by decide)
    refine notMem_toList_append ?_ (hnumber up)
    refine notMem_toList_append ?_ (by decide)
    refine notMem_toList_append ?_ (hnumber width)
    exact notMem_toList_append hname (by decide)
  · rintro note ⟨⟩

theorem angle_notMem_line : '<' ∉ Role.line.name.toList := by decide

theorem angle_notMem_branch : '<' ∉ Role.branch.name.toList := by decide

theorem angle_notMem_className (kind : LabelKind) : '<' ∉ kind.className.toList := by
  cases kind with
  | terminal => decide
  | rule target =>
    show '<' ∉ "RuleBox".toList
    decide

/-- Every builder makes a tidy box. -/
theorem ofBuilders_tidy (m : Metrics) : OfBuilders m Tidy where
  label kind text textWidth :=
    ⟨angle_notMem_sizeNote (angle_notMem_className kind) _ _ _, angle_notMem_line⟩
  line role hrole items := by
    have hname : '<' ∉ role.name.toList := by
      revert role
      decide
    cases items <;> exact ⟨angle_notMem_sizeNote (by decide) _ _ _, hname⟩
  stacked above main below := ⟨angle_notMem_sizeNote (by decide) _ _ _, angle_notMem_line⟩
  repeated item := ⟨angle_notMem_sizeNote (by decide) _ _ _, angle_notMem_line⟩

/-! ### Roles of connectors -/

theorem role_of_mem_gapTracks {role : Role} {x y span own : Int} {connector : Connector}
    (h : connector ∈ gapTracks m role x y span own) : connector.role = role := by
  unfold gapTracks at h
  dsimp only at h
  rw [List.mem_append] at h
  rcases h with h | h
  · split_ifs at h
    · exact absurd h List.not_mem_nil
    · rw [List.mem_singleton.mp h, Connector.horizontal]
  · split_ifs at h
    · exact absurd h List.not_mem_nil
    · rw [List.mem_singleton.mp h, Connector.horizontal]

theorem role_of_mem_joinTracks {role : Role} {x y : Int} {widths : List Int}
    {connector : Connector} (h : connector ∈ joinTracks m role x y widths) :
    connector.role = role := by
  induction widths generalizing x with
  | nil => exact absurd h List.not_mem_nil
  | cons width rest ih =>
    rcases List.mem_cons.mp h with rfl | h
    · rfl
    · exact ih h

/-- All tracks of a line have the role of the line. -/
theorem role_of_mem_lineTracks {role : Role} {x y span own : Int} {widths : List Int}
    {connector : Connector} (h : connector ∈ lineTracks m role x y span own widths) :
    connector.role = role := by
  cases widths with
  | nil =>
    unfold lineTracks at h
    split_ifs at h
    · exact absurd h List.not_mem_nil
    · rw [List.mem_singleton.mp h, Connector.right]
  | cons width rest =>
    rw [lineTracks, List.mem_append] at h
    rcases h with h | h
    · exact role_of_mem_gapTracks h
    · exact role_of_mem_joinTracks h

/-- The tracks to and from an item of a branch have its role, or that of a line on the main
track. -/
theorem role_of_mem_itemTracks {x y inner offset : Int} {role : Role} {connector : Connector}
    (h : connector ∈ itemTracks m x y inner offset role) :
    connector.role = role ∨ connector.role = .line := by
  unfold itemTracks at h
  dsimp only at h
  split_ifs at h
  · simp only [List.mem_cons, List.not_mem_nil, or_false] at h
    rcases h with rfl | rfl <;> exact Or.inl rfl
  · simp only [List.mem_cons, List.not_mem_nil, or_false] at h
    rcases h with rfl | rfl <;> exact Or.inr rfl
  · simp only [List.mem_cons, List.not_mem_nil, or_false] at h
    rcases h with rfl | rfl <;> exact Or.inl rfl

/-- The tracks of a loop are lines but for the one that leads back. -/
theorem role_of_mem_loopTracks {x y width offset : Int} {connector : Connector}
    (h : connector ∈ loopTracks m x y width offset) :
    connector.role = .line ∨ connector.role = .loop := by
  unfold loopTracks at h
  simp only [List.mem_cons, List.not_mem_nil, or_false] at h
  rcases h with rfl | rfl | rfl
  · exact Or.inl rfl
  · exact Or.inl rfl
  · exact Or.inr rfl

theorem Tidy.branchRole {box : Box α} (h : box.Tidy) : '<' ∉ box.branchRole.name.toList := by
  cases box with
  | line frame role items =>
    rw [Box.branchRole]
    split_ifs
    · exact angle_notMem_branch
    · exact h.role
  | _ => exact angle_notMem_branch

/-! ### Placing -/

/-- The note of a placed box and the roles of its connectors have no angle bracket. -/
structure Neat (box : Box Placement) : Prop where
  note : ∀ note ∈ box.frame.note, '<' ∉ note.toList
  roles : ∀ connector ∈ box.frame.place.connectors, '<' ∉ connector.role.name.toList

/-- A tidy box over tidy children is neat wherever it is placed. -/
theorem Tidy.neat_place {box : Box α} (h : box.Tidy)
    (hchildren : ∀ child ∈ box.children, child.Tidy) (x y span : Int) :
    (box.place m x y span).Neat := by
  cases box with
  | label frame kind text =>
    refine ⟨h.note, fun connector hconnector => ?_⟩
    rw [role_of_mem_gapTracks hconnector]
    exact angle_notMem_line
  | line frame role items =>
    refine ⟨h.note, fun connector hconnector => ?_⟩
    rw [role_of_mem_lineTracks hconnector]
    exact h.role
  | branch frame mainIndex separators offsets items =>
    refine ⟨h.note, fun connector hconnector => ?_⟩
    rcases List.mem_append.mp hconnector with hgap | hitem
    · rw [role_of_mem_gapTracks hgap]
      exact angle_notMem_line
    · -- each item is led to and from by its own role
      obtain ⟨⟨offset, role⟩, hrole, hconnector⟩ := List.mem_flatMap.mp hitem
      obtain ⟨item, hitem, rfl⟩ := List.mem_map.mp (List.of_mem_zip hrole).2
      rcases role_of_mem_itemTracks hconnector with heq | heq
      · rw [heq]
        exact (hchildren item hitem).branchRole
      · rw [heq]
        exact angle_notMem_line
  | loop frame offset item =>
    refine ⟨h.note, fun connector hconnector => ?_⟩
    rcases List.mem_append.mp hconnector with hgap | hloop
    · rw [role_of_mem_gapTracks hgap]
      exact angle_notMem_line
    · rcases role_of_mem_loopTracks hloop with heq | heq
      · rw [heq]
        exact angle_notMem_line
      · rw [heq]
        decide

/-- The boxes of a tidy tree are neat wherever it is placed. -/
theorem neat_of_mem_boxes_place {box : Box α} (h : ∀ b ∈ box.boxes, b.Tidy) (x y span : Int) :
    ∀ b ∈ (box.place m x y span).boxes, b.Neat := by
  induction box using Box.induction generalizing x y span with
  | step box ih =>
    have hmem (b : Box α) : b ∈ b.boxes := by
      rw [boxes_eq_cons]
      exact List.mem_cons_self ..
    rw [boxes_eq_cons, List.forall_mem_cons, List.forall_mem_flatMap] at h ⊢
    obtain ⟨hbox, hchildren⟩ := h
    have hself : ∀ child ∈ box.children, child.Tidy :=
      fun child hchild => hchildren child hchild child (hmem child)
    refine ⟨hbox.neat_place hself x y span, fun child hchild => ?_⟩
    obtain ⟨item, hitem, x', y', span', rfl⟩ := 
      exists_of_mem_placed (forall₂_children_place x y span box) hchild
    exact ih item hitem (hchildren item hitem) x' y' span'

end

end Box

/-- The notes and roles of a layout have no angle bracket. -/
theorem Entry.neat_layout {m : Metrics} {measure : Measure} {entry : Entry} {d : Drawing}
    (h : entry.layout m measure = .ok d) : ∀ b ∈ d.diagram.root.boxes, b.Neat := by
  rw [layout, bind_eq_ok_iff] at h
  obtain ⟨root, hroot, h⟩ := h
  obtain rfl := pure_eq_ok_iff.mp h
  rw [mapError_eq_ok_iff] at hroot
  exact Box.neat_of_mem_boxes_place
    ((Box.ofBuilders_tidy m).forall_mem_of_alternativesBox hroot) _ _ _

end SyntaxDiagram
