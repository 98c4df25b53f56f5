import SyntaxDiagram.Proofs.Box.Captions
import SyntaxDiagram.Proofs.Box.Spacing
import SyntaxDiagram.Proofs.Box.Tally
import SyntaxDiagram.Proofs.Box.Tidy
import SyntaxDiagram.Proofs.Entry.Normal

/-!
# All of an entry is shown once

The boxes of a class are tallied (`Box.tally_className`), and so are the connectors of a role, which
do not depend on where a box is placed (`Box.tally_role`).  So a drawing has as many of them as its
entry asks for, and together with the captions this makes it show all of the entry once
(`Entry.shown_layout`).
-/

namespace SyntaxDiagram

namespace Box

variable {m : Metrics}

/-! ### Boxes of a class -/

/-- A count over the boxes of a tree is that over the box itself and over its children. -/
theorem countP_boxes {α : Type} (P : Box α → Bool) (box : Box α) :
    box.boxes.countP P =
      (if P box then 1 else 0) + (box.children.map fun child => child.boxes.countP P).sum := by
  rw [boxes_eq_cons, List.countP_cons, List.countP_flatMap, add_comm]
  rfl

theorem sum_map_eq_of_forall₂ {f : Box Unit → Nat} {items : List (Box Unit)} {counts : List Nat}
    (h : List.Forall₂ (fun item count => f item = count) items counts) :
    (items.map f).sum = counts.sum := by
  rw [← List.forall₂_map_left_iff, List.forall₂_eq_eq_eq] at h
  rw [h]

/-- The branches and the loops are tallied, each by itself. -/
theorem tally_className {name : String} (hname : name = "Branch" ∨ name = "Loop") :
    Tally m (fun box n => box.boxes.countP (·.className = name) = n)
      (if "Branch" = name then 1 else 0) (if "Loop" = name then 1 else 0) 0 where
  label kind text textWidth := by
    have hclass : (ofLabel m kind text textWidth : Box Unit).className ≠ name := by
      rcases hname with rfl | rfl <;> cases kind <;> exact ne_of_beq_false rfl
    rw [countP_boxes, if_neg (by simpa using hclass)]
    rfl
  line items counts hitems := by
    have hclass : (ofItems m .line items).className ≠ name := by
      rcases hname with rfl | rfl <;> cases items <;> exact ne_of_beq_false rfl
    rw [countP_boxes, if_neg (by simpa using hclass), children_ofItems,
      sum_map_eq_of_forall₂ hitems, zero_add]
  branches main below counts _ hitems := by
    have hchildren : (stacked m [] main below).children = main :: below := rfl
    have hclass : (stacked m [] main below).className = "Branch" := rfl
    rw [countP_boxes, hchildren, sum_map_eq_of_forall₂ hitems, hclass]
    simp only [decide_eq_true_eq]
  repeated item count hitem := by
    have hchildren : (Box.repeated m item).children = [item] := rfl
    have hclass : (Box.repeated m item).className = "Loop" := rfl
    rw [countP_boxes, hchildren, List.map_singleton, List.sum_singleton, hitem, hclass]
    simp only [decide_eq_true_eq]
  skipped item count _ hitem := by
    have hchildren : (stacked m [Element.bypassTrack m] item []).children =
        [Element.bypassTrack m, item] := rfl
    have hclass : (stacked m [Element.bypassTrack m] item []).className = "Branch" := rfl
    have hbypass : (Element.bypassTrack m).boxes.countP (·.className = name) = 0 := by
      rcases hname with rfl | rfl <;> rfl
    rw [countP_boxes, hchildren, List.map_cons, List.map_singleton, List.sum_cons,
      List.sum_singleton, hbypass, hitem, hclass]
    simp only [decide_eq_true_eq, zero_add, add_zero]

/-! ### Connectors of a role -/

/-- A count over the connectors of a tree is that over those of the box itself and of its
children. -/
theorem countP_connectors (P : Connector → Bool) (box : Box Placement) :
    box.connectors.countP P = box.frame.place.connectors.countP P +
      (box.children.map fun child => child.connectors.countP P).sum := by
  rw [connectors, boxes_eq_cons, List.flatMap_cons, List.countP_append, List.flatMap_assoc,
    List.countP_flatMap]
  rfl

/-- A box has a number of connectors of a role wherever it is placed. -/
def HasTracks (m : Metrics) (role : Role) (box : Box Unit) (n : Nat) : Prop :=
  ∀ x y span, (box.place m x y span).connectors.countP (·.role = role) = n

theorem sum_countP_placed {role : Role} {items : List (Box Unit)} {placed : List (Box Placement)}
    {counts : List Nat} (hplaced : List.Forall₂ (Placed m) items placed)
    (h : List.Forall₂ (HasTracks m role) items counts) :
    (placed.map fun child => child.connectors.countP (·.role = role)).sum = counts.sum := by
  induction hplaced generalizing counts with
  | nil =>
    cases h
    rfl
  | @cons item first rest rest' hfirst _ ih =>
    obtain ⟨x, y, span, rfl⟩ := hfirst
    cases h with
    | cons hcount hcounts =>
      rw [List.map_cons, List.sum_cons, List.sum_cons, hcount, ih hcounts]

/-- The count over a placed box is that over its own connectors and those of its items. -/
theorem countP_connectors_place {role : Role} {box : Box Unit} {counts : List Nat}
    (h : List.Forall₂ (HasTracks m role) box.children counts) (x y span : Int) :
    (box.place m x y span).connectors.countP (·.role = role) =
      (box.place m x y span).frame.place.connectors.countP (·.role = role) + counts.sum := by
  rw [countP_connectors, sum_countP_placed (forall₂_children_place x y span box) h]

section roles

variable {role : Role} (hrole : role = .loop ∨ role = .bypass)

include hrole

/-- Plain track and that of branches are of neither role. -/
theorem countP_role_eq_zero {tracks : List Connector}
    (h : ∀ connector ∈ tracks, connector.role = .line ∨ connector.role = .branch) :
    tracks.countP (·.role = role) = 0 := by
  rw [List.countP_eq_zero]
  intro connector hconnector
  rw [decide_eq_true_eq]
  rcases h connector hconnector with heq | heq <;> rw [heq] <;>
    rcases hrole with rfl | rfl <;> decide

theorem countP_role_gapTracks (x y span own : Int) :
    (gapTracks m .line x y span own).countP (·.role = role) = 0 :=
  countP_role_eq_zero hrole fun _ hconnector => Or.inl (role_of_mem_gapTracks hconnector)

/-- Only the track back from the exit of a loop to its entry is not plain. -/
theorem countP_role_loopTracks (x y width offset : Int) :
    (loopTracks m x y width offset).countP (·.role = role) = if .loop = role then 1 else 0 := by
  rcases hrole with rfl | rfl <;> rfl

omit hrole in
/-- The bends that lead up to an item and down from it are of its role. -/
theorem countP_role_itemTracks {offset : Int} (hneg : offset < 0) (x y inner : Int)
    (role' : Role) :
    (itemTracks m x y inner offset role').countP (·.role = role) =
      if role' = role then 2 else 0 := by
  unfold itemTracks
  rw [if_pos hneg]
  by_cases heq : role' = role
  · simp [heq]
  · simp [heq]

/-- The track past an item is a single connector, unless there is no way to go. -/
theorem countP_role_bypassTrack (x y : Int) {span : Int} (hspan : span ≠ 0) :
    ((Element.bypassTrack m).place m x y span).connectors.countP (·.role = role) =
      if .bypass = role then 1 else 0 := by
  have htrack : ((Element.bypassTrack m).place m x y span).connectors =
      [.right x y .bypass span] := by
    show (if span = 0 then [] else [Connector.right x y .bypass span]) ++ [] = _
    rw [if_neg hspan, List.append_nil]
  rw [htrack]
  rcases hrole with rfl | rfl <;> rfl

/-- Past an item lead the track above it and the bends at both ends of that. -/
theorem hasTracks_skipped (hr : 0 < m.arcRadius) {item : Box Unit} {count : Nat}
    (hpos : 0 < item.width) (hitem : HasTracks m role item count) :
    HasTracks m role (stacked m [Element.bypassTrack m] item [])
      ((if .bypass = role then 3 else 0) + count) := by
  intro x y span
  let box := stacked m [Element.bypassTrack m] item []
  obtain ⟨offset, hoffsets⟩ : ∃ offset, box.offsets = [offset, 0] := ⟨_, rfl⟩
  have hneg : offset < 0 := by
    -- the arcs to the line of the track take two radii
    have hstep : box.offsets.getD 1 0 - box.offsets.getD 0 0 = max _ (2 * m.arcRadius) :=
      (fits_stacked (i := 0) (by simp)).step_eq_max
    rw [hoffsets, List.getD_cons_succ, List.getD_cons_zero, List.getD_cons_zero] at hstep
    omega
  let x' := x + leftGap m span box.width
  let inner := box.width - 4 * m.arcRadius
  have hinner : inner ≠ 0 := by
    have hle : item.width ≤ box.width - 4 * m.arcRadius := width_le_of_mem_stacked (by simp)
    omega
  -- the bends at both ends of the track, and plain track next to the item
  have htracks : (box.place m x y span).frame.place.connectors =
      gapTracks m .line x y span box.width ++ (itemTracks m x' y inner offset .bypass ++
        itemTracks m x' y inner 0 item.branchRole) := by
    show gapTracks m .line x y span box.width ++
      (box.offsets.zip [Role.bypass, item.branchRole]).flatMap _ = _
    rw [hoffsets]
    exact congrArg _ (congrArg _ (List.append_nil _))
  have hmain : (itemTracks m x' y inner 0 item.branchRole).countP (·.role = role) = 0 :=
    countP_role_eq_zero hrole (by simp [itemTracks, Connector.right])
  have hown : (box.place m x y span).frame.place.connectors.countP (·.role = role) =
      if .bypass = role then 2 else 0 := by
    rw [htracks, List.countP_append, List.countP_append, countP_role_gapTracks hrole,
      countP_role_itemTracks hneg, hmain, zero_add, add_zero]
  have hchildren : (box.place m x y span).children =
      [(Element.bypassTrack m).place m (x' + 2 * m.arcRadius) (y + offset) inner,
        item.place m (x' + 2 * m.arcRadius) (y + 0) inner] := by
    show placeStack m _ _ _ box.offsets [Element.bypassTrack m, item] = _
    rw [hoffsets]
    rfl
  show (box.place m x y span).connectors.countP _ = _
  rw [countP_connectors, hown, hchildren, List.map_cons, List.map_singleton, List.sum_cons,
    List.sum_singleton, countP_role_bypassTrack hrole _ _ hinner, hitem]
  split_ifs <;> omega

/-- The tracks back to the entry of a loop and the tracks past an item are tallied, each by
themselves. -/
theorem tally_role (hr : 0 < m.arcRadius) :
    Tally m (HasTracks m role) 0 (if .loop = role then 1 else 0)
      (if .bypass = role then 3 else 0) where
  label kind text textWidth x y span := by
    have hitems : List.Forall₂ (HasTracks m role)
        (ofLabel m kind text textWidth : Box Unit).children [] := .nil
    rw [countP_connectors_place hitems]
    exact countP_role_gapTracks hrole ..
  line items counts hitems x y span := by
    rw [← children_ofItems (m := m) .line items] at hitems
    -- all tracks of a line are plain
    have hplain : ((ofItems m .line items).place m x y span).frame.place.connectors.countP
        (·.role = role) = 0 := by
      obtain ⟨frame, hframe⟩ : ∃ frame, ofItems m .line items = .line frame .line items := by
        cases items <;> exact ⟨_, rfl⟩
      refine countP_role_eq_zero hrole fun connector hconnector => Or.inl ?_
      rw [hframe] at hconnector
      exact role_of_mem_lineTracks hconnector
    rw [countP_connectors_place hitems, hplain, zero_add]
  branches main below counts hroles hitems x y span := by
    -- all tracks of a branch are plain or lead to an item and from it
    have hplain : ((stacked m [] main below).place m x y span).frame.place.connectors.countP
        (·.role = role) = 0 := by
      refine countP_role_eq_zero hrole fun connector hconnector => ?_
      rcases List.mem_append.mp hconnector with hgap | hitem
      · exact Or.inl (role_of_mem_gapTracks hgap)
      · obtain ⟨⟨offset, role'⟩, hrole', hconnector⟩ := List.mem_flatMap.mp hitem
        obtain ⟨item, hitem, rfl⟩ := List.mem_map.mp (List.of_mem_zip hrole').2
        rw [← hroles item hitem]
        exact (role_of_mem_itemTracks hconnector).symm
    rw [countP_connectors_place hitems, hplain, zero_add]
  repeated item count hitem x y span := by
    have hitems : List.Forall₂ (HasTracks m role) (Box.repeated m item).children [count] :=
      .cons hitem .nil
    -- of the tracks of a loop, one leads back
    have hown : ((Box.repeated m item).place m x y span).frame.place.connectors.countP
        (·.role = role) = if .loop = role then 1 else 0 := by
      show (gapTracks m .line _ _ _ _ ++ loopTracks m _ _ _ _).countP _ = _
      rw [List.countP_append, countP_role_gapTracks hrole, countP_role_loopTracks hrole, zero_add]
    rw [countP_connectors_place hitems, hown, List.sum_singleton]
  skipped item count hpos hitem := by
    rw [zero_add]
    exact hasTracks_skipped hrole hr hpos hitem

end roles

end Box

/-! ### Entries -/

namespace Drawing

/-- A drawing shows all of an entry once. Its label boxes are the leaves of the entry in order, with
nothing inside of them. There is a loop, and a track that leads back, for each element that can be
repeated; a branch for each alternation, for each element that can be left out and for several
alternatives; and for each element that can be left out a track past it with a bend at both ends. -/
structure Shows (d : Drawing) (entry : Entry) : Prop where
  captions_eq : d.boxes.filterMap Box.caption? = entry.walk.filterMap Element.caption?
  of_caption : ∀ box ∈ d.boxes, ∀ caption ∈ box.caption?,
    box.className = caption.1.className ∧ box.children = []
  loops : d.boxes.countP (·.className = "Loop") = entry.walk.countP Element.isRepeatable
  loopTracks : d.connectors.countP (·.role = .loop) = entry.walk.countP Element.isRepeatable
  branches : d.boxes.countP (·.className = "Branch") =
    entry.walk.countP Element.isAlternation + entry.walk.countP Element.isSkippable +
      if 1 < entry.alternatives.length then 1 else 0
  bypassTracks : d.connectors.countP (·.role = .bypass) =
    3 * entry.walk.countP Element.isSkippable

end Drawing

theorem Box.countP_className_place {m : Metrics} (name : String) (x y span : Int) (box : Box Unit) :
    (box.place m x y span).boxes.countP (·.className = name) =
      box.boxes.countP (·.className = name) := by
  have hclass (box : Box Unit) (x y span : Int) :
      (box.place m x y span).className = box.className := by
    cases box <;> rfl
  have hmap {α : Type} (b : Box α) : b.boxes.countP (·.className = name) =
      (b.boxes.map className).countP (· = name) := by
    rw [List.countP_map]
    rfl
  rw [hmap, hmap, map_boxes_place hclass]

namespace Entry

variable {m : Metrics} {measure : Measure} {entry : Entry} {d : Drawing}

/-- What is tallied in the box of a layout. -/
theorem exists_tally_of_layout {Has : Box Unit → Nat → Prop} {branch loop bypass : Nat}
    (htally : Box.Tally m Has branch loop bypass) (hm : m.Sized) (hnormal : entry.Normal)
    (h : entry.layout m measure = .ok d) :
    ∃ root, d = (Diagram.ofBox m entry root Diagram.standardPadding).draw m ∧
      Has root ((if 1 < entry.alternatives.length then branch else 0) +
        (branch * entry.walk.countP Element.isAlternation +
          (branch + bypass) * entry.walk.countP Element.isSkippable +
          loop * entry.walk.countP Element.isRepeatable)) := by
  obtain ⟨root, hroot, rfl⟩ := exists_box_of_layout h
  have hhas := htally.of_alternativesBox hm hnormal.normal hroot
  rw [Element.sum_map_weight] at hhas
  exact ⟨root, rfl, hhas⟩

theorem countP_className_layout {name : String} (hname : name = "Branch" ∨ name = "Loop")
    (hm : m.Sized) (hnormal : entry.Normal) (h : entry.layout m measure = .ok d) :
    d.boxes.countP (·.className = name) =
      (if "Branch" = name then 1 else 0) * ((if 1 < entry.alternatives.length then 1 else 0) +
        entry.walk.countP Element.isAlternation + entry.walk.countP Element.isSkippable) +
      (if "Loop" = name then 1 else 0) * entry.walk.countP Element.isRepeatable := by
  obtain ⟨root, rfl, hroot⟩ := exists_tally_of_layout (Box.tally_className hname) hm hnormal h
  have hplaced : ((Diagram.ofBox m entry root Diagram.standardPadding).draw m).boxes.countP
      (·.className = name) = root.boxes.countP (·.className = name) :=
    Box.countP_className_place name _ _ _ root
  rw [hplaced, hroot]
  split_ifs <;> omega

theorem countP_role_layout {role : Role} (hrole : role = .loop ∨ role = .bypass)
    (hm : m.Spaced) (hnormal : entry.Normal) (h : entry.layout m measure = .ok d) :
    d.connectors.countP (·.role = role) =
      (if .bypass = role then 3 else 0) * entry.walk.countP Element.isSkippable +
      (if .loop = role then 1 else 0) * entry.walk.countP Element.isRepeatable := by
  obtain ⟨root, rfl, hroot⟩ := exists_tally_of_layout (Box.tally_role hrole hm.arcRadius_pos)
    hm.toNonneg.sized hnormal h
  have htermini : ((Diagram.ofBox m entry root Diagram.standardPadding).draw m).termini.countP
      (·.role = role) = 0 :=
    Box.countP_role_eq_zero hrole (by simp [Diagram.draw, Connector.right])
  have hplaced : ((Diagram.ofBox m entry root Diagram.standardPadding).draw
      m).diagram.root.connectors.countP (·.role = role) = _ := hroot _ _ _
  rw [Drawing.connectors, List.countP_append, htermini, hplaced]
  simp only [ite_self]
  ring

/-- A layout shows all of its entry once. -/
theorem shown_layout (hm : m.Spaced) (hnormal : entry.Normal)
    (h : entry.layout m measure = .ok d) : d.Shows entry where
  captions_eq := captions_layout h
  of_caption box _ caption hcaption := by
    cases box with
    | label frame kind text =>
      obtain rfl := Option.some.inj hcaption
      exact ⟨rfl, rfl⟩
    | _ => exact absurd hcaption (by simp [Box.caption?])
  loops := by
    rw [countP_className_layout (Or.inr rfl) hm.toNonneg.sized hnormal h]
    simp
  loopTracks := by
    rw [countP_role_layout (Or.inl rfl) hm hnormal h]
    simp [Role.loop, Role.bypass]
  branches := by
    rw [countP_className_layout (Or.inl rfl) hm.toNonneg.sized hnormal h]
    simp
    omega
  bypassTracks := by
    rw [countP_role_layout (Or.inr rfl) hm hnormal h]
    simp [Role.loop, Role.bypass]

/-- A rule for a call, or for some bangs and question marks in any order. -/
theorem shown_layout_call :
    let entry : Entry :=
      ⟨.rule, "call", "", [[.reference "name" none, .literal "(",
        .quantified (.sequence [.reference "argument" none,
          .quantified (.sequence [.literal ",", .reference "argument" none]) .star]) .optional,
        .literal ")"],
        [.quantified (.alternation [.sequence [.literal "!"], .sequence [.literal "?"]]) .plus]]⟩
    Metrics.standard.Spaced ∧ entry.Normal ∧
      ∃ d, entry.layout .standard (.const (some (.int 9))) = .ok d ∧ d.Shows entry := by
  intro entry
  -- the rule is what the builders make of its description
  let node : EntryNode :=
    ⟨.rule, "call", "", [[.reference "name" none, .literal "(",
      .quantified (.sequence [.reference "argument" none,
        .quantified (.sequence [.literal ",", .reference "argument" none]) .star]) .optional,
      .literal ")"], [.quantified (.alternation [.literal "!", .literal "?"]) .plus]]⟩
  have hbuild : node.build = .ok entry := rfl
  have hnormal : entry.Normal := EntryNode.normal_of_build hbuild
  have hlayout : entry.layout .standard (.const (some (.int 9))) = .ok _ := rfl
  exact ⟨Metrics.spaced_standard, hnormal, _, hlayout,
    shown_layout Metrics.spaced_standard hnormal hlayout⟩

end Entry

end SyntaxDiagram
