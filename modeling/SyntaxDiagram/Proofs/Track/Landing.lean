import SyntaxDiagram.Proofs.Geometry.Room
import SyntaxDiagram.Proofs.Track.Heading
import Mathlib.Logic.Relation

/-!
# Where tracks land

The tracks of a box lead from the start of its slot to the box, from the box to the end of its slot,
and between the box and the slots of its children (`Slot.Tracked`).  What is asked for to draw them
is `Slot.drafts`: nothing of it is cut, and every connector is smooth.  In a placed tree that holds
of every box, whatever slot the root has (`Box.tracked_place`).
-/

namespace SyntaxDiagram

/-! ### Filling a stretch of track -/

/-- Nothing is drawn from a point to itself; from a point to another one leads one connector. -/
def Connector.Fills (radius : Int) (p q : Point) (tracks : List Connector) : Prop :=
  if p = q then tracks = [] else ∃ c, tracks = [c] ∧ c.Joins radius p q

namespace Connector

theorem fills_self (radius : Int) (p : Point) : Fills radius p p [] := by
  rw [Fills, if_pos rfl]

/-- A connector fills the way that it joins, unless there is none to go. -/
theorem fills_of_joins {radius x y length : Int} {c : Connector}
    (h : c.Joins radius (x, y) (x + length, y)) :
    Fills radius (x, y) (x + length, y) (if length = 0 then [] else [c]) := by
  unfold Fills
  by_cases hzero : length = 0
  · rw [if_pos hzero, if_pos (by rw [hzero, add_zero])]
  · have hne : (x, y) ≠ (x + length, y) := by
      intro heq
      have := (Prod.mk.inj heq).1
      omega
    rw [if_neg hzero, if_neg hne]
    exact ⟨c, rfl, h⟩

end Connector

/-- The gaps on both sides of a box are filled. -/
theorem Box.exists_fills_gapTracks (m : Metrics) (radius : Int) (role : Role)
    (x y span own : Int) :
    ∃ before after, gapTracks m role x y span own = before ++ after ∧
      Connector.Fills radius (x, y) (x + leftGap m span own, y) before ∧
      Connector.Fills radius (x + leftGap m span own + own, y) (x + span, y) after := by
  have hsum := m.alignment.gaps_sum span own
  have hend : x + span = x + leftGap m span own + own + (m.alignment.gaps span own).2 := by
    rw [leftGap]
    omega
  rw [hend]
  exact ⟨_, _, rfl, Connector.fills_of_joins (Connector.joins_horizontal ..),
    Connector.fills_of_joins (Connector.joins_horizontal ..)⟩

namespace Slot

variable {α : Type}

/-! ### Ends of slots and of placed boxes -/

/-- Where the track of a slot begins. -/
def start (s : Slot α) : Point := (s.x, s.y)

/-- Where the track of a slot ends. -/
def finish (s : Slot α) : Point := (s.x + s.span, s.y)

/-- A placed box is entered on its track, after the left gap. -/
theorem entryPoint_place (m : Metrics) (s : Slot α) :
    (s.place m).entryPoint = (s.left m, s.y) := by
  obtain ⟨x, y, span, item⟩ := s
  cases item <;> rfl

/-- A placed box is left on its track, at its own width from there. -/
theorem exitPoint_place (m : Metrics) (s : Slot α) :
    (s.place m).exitPoint = (s.left m + s.item.width, s.y) := by
  have h := entryPoint_place m s
  rw [Box.entryPoint, Prod.mk.injEq] at h
  rw [Box.exitPoint, h.1, h.2, place, Box.width_place]

theorem left_eq_of_span_eq {m : Metrics} {s : Slot α} (h : s.span = s.item.width) :
    s.left m = s.x := by
  rw [left, h, Box.leftGap_self, ite_self, add_zero]

/-- A box as wide as its slot is entered where the slot begins. -/
theorem entryPoint_place_of_span_eq {m : Metrics} {s : Slot α} (h : s.span = s.item.width) :
    (s.place m).entryPoint = s.start := by
  rw [entryPoint_place, left_eq_of_span_eq h, start]

/-- A box as wide as its slot is left where the slot ends. -/
theorem exitPoint_place_of_span_eq {m : Metrics} {s : Slot α} (h : s.span = s.item.width) :
    (s.place m).exitPoint = s.finish := by
  rw [exitPoint_place, left_eq_of_span_eq h, finish, h]

/-! ### Tracks to the children -/

/-- The tracks of a line lead from each slot of its items to the next one. -/
def Chained (radius : Int) (slots : List (Slot α)) (tracks : List Connector) : Prop :=
  List.Forall₂ (fun pair c => c.Joins radius pair.1.finish pair.2.start) (slots.zip slots.tail)
    tracks

/-- Two connectors lead from the entry of a branch to the slot of an item, and from there to the
exit of the branch. -/
structure Forked (m : Metrics) (s t : Slot α) (there back : Connector) : Prop where
  joins_there : there.Joins m.arcRadius (s.place m).entryPoint t.start
  joins_back : back.Joins m.arcRadius t.finish (s.place m).exitPoint

/-- Two connectors lead to the slot of the item of a loop and from there on, and a third one leads
from the exit of the item down to the offset of the loop, along it, and back up to the entry. -/
structure Looped (m : Metrics) (s t : Slot α) (offset : Int) (there back around : Connector) :
    Prop extends Forked m s t there back where
  role_around : around.role = .loop
  start_around : around.start = (t.place m).exitPoint
  finish_around : around.finish m.arcRadius = (t.place m).entryPoint
  mem_legs_around : (((t.place m).exitPoint.1, s.y + offset),
    ((t.place m).entryPoint.1, s.y + offset)) ∈ around.legs m.arcRadius
  bounds_around : ∀ p ∈ around.points m.arcRadius, s.y ≤ p.2 ∧ p.2 ≤ s.y + offset

/-- The tracks inside of a box lead to all of its children. -/
def Joined (m : Metrics) (s : Slot α) (tracks : List Connector) : Prop :=
  match s.item with
  | .label .. => tracks = []
  | .line .. => Chained m.arcRadius (s.slots m) tracks
  | .branch _ _ _ offsets items =>
    (s.slots m).map (·.item) = items ∧ (s.slots m).map (·.y) = offsets.map (s.y + ·) ∧
      ∃ pairs : List (Connector × Connector), tracks = pairs.flatMap (fun p => [p.1, p.2]) ∧
        List.Forall₂ (fun t p => Forked m s t p.1 p.2) (s.slots m) pairs
  | .loop _ offset item =>
    ∃ t there back around, s.slots m = [t] ∧ t.item = item ∧ tracks = [there, back, around] ∧
      Looped m s t offset there back around

/-- The tracks between the items of a line lead from each to the next. -/
theorem chained_joinTracks {m : Metrics} {radius : Int} {role : Role} {x y : Int}
    {first : Box α} {rest : List (Box α)} :
    Chained radius (row m x y (first :: rest))
      (Box.joinTracks m role (x + first.width) y (rest.map Box.width)) := by
  induction rest generalizing x first with
  | nil => exact .nil
  | cons second rest ih =>
    -- the first track leads to the slot of the second item, where the row of the rest begins
    exact .cons (Connector.joins_horizontal ..) ih

/-- Two connectors for each member of a list are a list of pairs. -/
theorem exists_pairs {β : Type} {f : β → List Connector} {P : β → Connector → Connector → Prop}
    {l : List β} (h : ∀ b ∈ l, ∃ there back, f b = [there, back] ∧ P b there back) :
    ∃ pairs : List (Connector × Connector), l.flatMap f = pairs.flatMap (fun p => [p.1, p.2]) ∧
      List.Forall₂ (fun b p => P b p.1 p.2) l pairs := by
  induction l with
  | nil => exact ⟨[], rfl, .nil⟩
  | cons b l ih =>
    obtain ⟨there, back, hb, hP⟩ := h b (List.mem_cons_self ..)
    obtain ⟨pairs, hl, hpairs⟩ := ih fun b hb => h b (List.mem_cons_of_mem _ hb)
    exact ⟨(there, back) :: pairs, by rw [List.flatMap_cons, List.flatMap_cons, hb, hl],
      .cons hP hpairs⟩

/-! ### Tracks of one box -/

/-- What is asked for to draw the tracks of the box of a slot. -/
def drafts (m : Metrics) (s : Slot α) : List Draft :=
  let x := s.x + Box.leftGap m s.span s.item.width
  match s.item with
  | .label frame .. => Box.gapDrafts m .line s.x s.y s.span frame.width
  | .line frame role items =>
    Box.lineDrafts m role s.x s.y s.span frame.width (items.map Box.width)
  | .branch frame _ _ offsets items =>
    Box.gapDrafts m .line s.x s.y s.span frame.width ++
      (offsets.zip items).flatMap fun t =>
        Box.itemDrafts m x s.y (frame.width - 4 * m.arcRadius) t.1 t.2.branchRole
  | .loop frame offset _ =>
    Box.gapDrafts m .line s.x s.y s.span frame.width ++ Box.loopDrafts m x s.y frame.width offset

/-- The tracks of the box of a slot: they lead from the start of the slot to the box, from the box
to the end of the slot, and to the slots of all children.  They are drawn as they are asked for,
with nothing cut, and all of them are smooth. -/
structure Tracked (m : Metrics) (s : Slot α) : Prop where
  children_eq : (s.place m).children = (s.slots m).map (place m)
  lands : ∃ before after inner, s.tracks m = before ++ after ++ inner ∧
    Connector.Fills m.arcRadius s.start (s.place m).entryPoint before ∧
    Connector.Fills m.arcRadius (s.place m).exitPoint s.finish after ∧ s.Joined m inner
  tracks_eq : s.tracks m = (s.drafts m).map Draft.connector
  unclamped : ∀ d ∈ s.drafts m, ∀ stride ∈ d.strides, stride.Unclamped
  smooth : ∀ c ∈ s.tracks m, c.Smooth m.arcRadius

/-- The tracks of a slot are those asked for, drawn. -/
theorem tracks_eq_map_drafts (m : Metrics) (s : Slot α) :
    s.tracks m = (s.drafts m).map Draft.connector := by
  obtain ⟨x, y, span, item⟩ := s
  cases item with
  | label frame kind text => exact Box.gapTracks_eq_map ..
  | line frame role items => exact Box.lineTracks_eq_map ..
  | branch frame mainIndex separators offsets items =>
    simp only [tracks, place, Box.place, Box.frame, Frame.moveTo, drafts, Box.gapTracks_eq_map,
      Box.itemTracks_eq_map, List.zip_map_right, List.flatMap_map, List.map_append,
      List.map_flatMap, Prod.map, id, Box.width]
  | loop frame offset item =>
    simp only [tracks, place, Box.place, Box.frame, Frame.moveTo, drafts, Box.gapTracks_eq_map,
      Box.loopTracks_eq_map, List.map_append, Box.width]

variable {m : Metrics}

/-- The gaps around a box that is not a bare track are filled, and the other tracks are inside. -/
theorem exists_lands {s : Slot α} (hbare : s.item.isBareTrack = false) {role : Role}
    {inner : List Connector}
    (htracks : s.tracks m = Box.gapTracks m role s.x s.y s.span s.item.width ++ inner)
    (hinner : s.Joined m inner) :
    ∃ before after inner, s.tracks m = before ++ after ++ inner ∧
      Connector.Fills m.arcRadius s.start (s.place m).entryPoint before ∧
      Connector.Fills m.arcRadius (s.place m).exitPoint s.finish after ∧ s.Joined m inner := by
  obtain ⟨before, after, hgaps, hbefore, hafter⟩ :=
    Box.exists_fills_gapTracks m m.arcRadius role s.x s.y s.span s.item.width
  rw [entryPoint_place, exitPoint_place, left_eq hbare]
  exact ⟨before, after, inner, by rw [htracks, hgaps], hbefore, hafter, hinner⟩

variable [Inhabited α]

/-- The arcs of all tracks fit into the sizes of the box. -/
theorem sound_of_mem_drafts (hm : m.Sized) {s : Slot α} (h : s.Valid m) {d : Draft}
    (hd : d ∈ s.drafts m) : d.Sound m.arcRadius := by
  have hr := hm.arcRadius
  cases h with
  | label x y span kind text textWidth pos fits => exact Box.sound_of_mem_gapDrafts fits hd _
  | line x y span role items built fits =>
    cases items with
    | nil =>
      -- a bare track is one stride over the whole span
      have hspan : 0 ≤ span := fits
      change d ∈ if span = 0 then [] else [⟨x, y, role, [.straight .east span]⟩] at hd
      split_ifs at hd with hzero
      · exact absurd hd List.not_mem_nil
      · obtain rfl := List.mem_singleton.mp hd
        exact Draft.sound_east x y role hspan
    | cons first rest =>
      rcases List.mem_append.mp hd with hd | hd
      · exact Box.sound_of_mem_gapDrafts fits hd _
      · exact Box.sound_of_mem_joinDrafts hm.itemGap hd _
  | stacked x y span above main below built fits =>
    have hsizes := fun item hitem => ((built item hitem).nonneg_of_sized hm).2
    rcases List.mem_append.mp hd with hd | hd
    · exact Box.sound_of_mem_gapDrafts fits hd _
    · obtain ⟨tier, htier, hd⟩ := List.mem_flatMap.mp hd
      -- an item off the main track leaves room for two arcs
      have hoffset := Box.offset_of_mem_tiers_stacked hm.separation hsizes htier
      exact Box.sound_of_mem_itemDrafts hr hoffset hd _
  | repeated x y span item built fits =>
    have hitem := built.nonneg_of_sized hm
    have hwidth : (Box.repeated m item).width = item.width + 2 * m.arcRadius := rfl
    rcases List.mem_append.mp hd with hd | hd
    · exact Box.sound_of_mem_gapDrafts fits hd _
    · -- so do the width of the loop and its offset
      change d ∈ Box.loopDrafts m _ y (Box.repeated m item).width
        (max (2 * m.arcRadius) (item.down + m.separation)) at hd
      exact Box.sound_of_mem_loopDrafts hr (by omega) (by omega) hd _

/-- The tracks of a branch fork to each of its items and back. -/
theorem joined_stacked (hm : m.Sized) {x y span : Int} {above below : List (Box α)}
    {main : Box α} (hbuilt : ∀ item ∈ above ++ main :: below, Box.Built m item) :
    Joined m ⟨x, y, span, .stacked m above main below⟩
      ((Box.stacked m above main below).tiers.flatMap fun t =>
        Box.itemTracks m (x + Box.leftGap m span (Box.stacked m above main below).width) y
          ((Box.stacked m above main below).width - 4 * m.arcRadius) t.1 t.2.branchRole) := by
  have hsizes := fun item hitem => ((hbuilt item hitem).nonneg_of_sized hm).2
  rw [Joined]
  refine ⟨?_, ?_, ?_⟩
  · rw [slots_stacked, stack, List.map_map]
    exact Box.map_snd_tiers_stacked
  · have hoffsets : (Box.stacked m above main below).tiers.map Prod.fst =
        (Box.stacked m above main below).offsets := Box.map_fst_tiers_stacked
    rw [slots_stacked, stack, List.map_map]
    show _ = (Box.stacked m above main below).offsets.map _
    rw [← hoffsets, List.map_map]
    rfl
  · rw [slots_stacked, stack]
    simp only [List.forall₂_map_left_iff]
    refine exists_pairs fun tier htier => ?_
    have hoffset := Box.offset_of_mem_tiers_stacked hm.separation hsizes htier
    obtain ⟨there, back, htracks, hthere, hback⟩ := Box.joins_itemTracks hm.arcRadius hoffset
      (x + Box.leftGap m span (Box.stacked m above main below).width) y
      ((Box.stacked m above main below).width - 4 * m.arcRadius) tier.2.branchRole
    have hentry := entryPoint_place m ⟨x, y, span, .stacked m above main below⟩
    have hexit := exitPoint_place m ⟨x, y, span, .stacked m above main below⟩
    rw [left_eq rfl] at hentry hexit
    refine ⟨there, back, htracks, ?_, ?_⟩
    · rw [hentry]
      exact hthere
    · -- the arcs on both sides take two radii each
      have hend (left width : Int) :
          left + 2 * m.arcRadius + (width - 4 * m.arcRadius) + 2 * m.arcRadius = left + width := by
        omega
      rw [hend] at hback
      rw [hexit]
      exact hback

/-- The track back of a loop runs along the line at its offset. -/
theorem mem_legs_of_mem_loopTracks {x y width offset : Int} {there back around : Connector}
    (h : Box.loopTracks m x y width offset = [there, back, around]) (hw : 2 * m.arcRadius ≤ width)
    (ho : 2 * m.arcRadius ≤ offset) :
    around.role = .loop ∧
      ((x + width - m.arcRadius, y + offset), (x + m.arcRadius, y + offset)) ∈
        around.legs m.arcRadius := by
  obtain ⟨-, -, rfl⟩ : _ ∧ _ ∧ _ := by
    simpa only [Box.loopTracks, List.cons.injEq, and_true] using h
  refine ⟨rfl, ?_⟩
  simp only [Connector.legs, Connector.legsFrom, Connector.start, Move.apply_arc, Sweep.delta_ne,
    Move.down, Move.apply_vertical, Sweep.delta_es, Move.left, Move.apply_horizontal]
  -- after an arc, the way down and another arc
  refine List.mem_cons_of_mem _ (List.mem_cons_of_mem _ (List.mem_cons_of_mem _ ?_))
  refine List.mem_cons.mpr (Or.inl ?_)
  simp only [Prod.mk.injEq]
  omega

/-- The tracks of a loop lead to its item, from it, and around. -/
theorem joined_repeated (hm : m.Sized) {x y span : Int} {item : Box α} (hbuilt : item.Built m) :
    Joined m ⟨x, y, span, .repeated m item⟩
      (Box.loopTracks m (x + Box.leftGap m span (Box.repeated m item).width) y
        (Box.repeated m item).width (Box.repeated m item).down) := by
  have hr := hm.arcRadius
  have hitem := hbuilt.nonneg_of_sized hm
  have hwidth : (Box.repeated m item).width = item.width + 2 * m.arcRadius := rfl
  have hdown : (Box.repeated m item).down =
      max (2 * m.arcRadius) (item.down + m.separation) := rfl
  obtain ⟨there, back, around, htracks, hthere, hback, hstart, hfinish, hstays, -⟩ :=
    Box.loopTracks_spec hr (x + Box.leftGap m span (Box.repeated m item).width) y
      (Box.repeated m item).width (Box.repeated m item).down (by omega) (by omega)
  obtain ⟨hrole, hleg⟩ := mem_legs_of_mem_loopTracks htracks (by omega) (by omega)
  have hentry := entryPoint_place m ⟨x, y, span, .repeated m item⟩
  have hexit := exitPoint_place m ⟨x, y, span, .repeated m item⟩
  rw [left_eq rfl] at hentry hexit
  dsimp only at hentry hexit
  -- the item takes the whole of its slot
  set t : Slot α := ⟨x + Box.leftGap m span (Box.repeated m item).width + m.arcRadius, y,
    (Box.repeated m item).width - 2 * m.arcRadius, item⟩ with ht
  have hspan : t.span = t.item.width := by
    show (Box.repeated m item).width - 2 * m.arcRadius = item.width
    omega
  have hfar : t.finish = (x + Box.leftGap m span (Box.repeated m item).width +
      (Box.repeated m item).width - m.arcRadius, y) := by
    rw [finish, Prod.mk.injEq]
    show x + Box.leftGap m span (Box.repeated m item).width + m.arcRadius +
      ((Box.repeated m item).width - 2 * m.arcRadius) = _ ∧ _
    exact ⟨by omega, rfl⟩
  have hitemEntry : (t.place m).entryPoint = t.start := entryPoint_place_of_span_eq hspan
  have hitemExit : (t.place m).exitPoint = t.finish := exitPoint_place_of_span_eq hspan
  refine ⟨t, there, back, around, slots_repeated .., rfl, htracks, ⟨?_, ?_⟩, hrole, ?_, ?_, ?_, ?_⟩
  · rw [hentry]
    exact hthere
  · rw [hexit, hfar]
    exact hback
  · rw [hitemExit, hfar]
    exact hstart
  · rw [hitemEntry]
    exact hfinish
  · rw [hitemExit, hitemEntry, hfar]
    exact hleg
  · intro p hp
    have h := hstays p hp
    simp only [Rect.mem_iff] at h
    exact h.2.2

/-- Every box that the builders give is drawn with tracks that land where they have to. -/
theorem tracked_of_valid (hm : m.Sized) {s : Slot α} (h : s.Valid m) : s.Tracked m where
  children_eq := children_place h
  tracks_eq := tracks_eq_map_drafts m s
  unclamped := fun d hd => (sound_of_mem_drafts hm h hd).unclamped
  smooth := by
    rw [tracks_eq_map_drafts, List.forall_mem_map]
    exact fun d hd => (sound_of_mem_drafts hm h hd).smooth
  lands := by
    cases h with
    | label x y span kind text textWidth pos fits =>
      exact exists_lands rfl (by rw [tracks_ofLabel, List.append_nil]) rfl
    | line x y span role items built fits =>
      cases items with
      | nil =>
        -- a bare track is entered where its slot begins, and runs behind it to the end
        have hspan : 0 ≤ span := fits
        have hleft : left m ⟨x, y, span, (Box.ofItems m role [] : Box α)⟩ = x := add_zero x
        have hwidth : (Box.ofItems m role [] : Box α).width = 0 := rfl
        have hfill := Connector.fills_of_joins (Connector.joins_right hspan m.arcRadius x y role)
        rw [entryPoint_place, exitPoint_place, tracks_ofItems_nil, hleft]
        refine ⟨[], _, [], by rw [List.nil_append, List.append_nil], ?_, ?_, .nil⟩
        · exact Connector.fills_self ..
        · dsimp only
          rw [hwidth, add_zero]
          exact hfill
      | cons first rest =>
        exact exists_lands rfl (tracks_ofItems_cons ..) chained_joinTracks
    | stacked x y span above main below built fits =>
      exact exists_lands rfl (tracks_stacked ..) (joined_stacked hm built)
    | repeated x y span item built fits =>
      exact exists_lands rfl (tracks_repeated ..) (joined_repeated hm built)

/-! ### Placed trees -/

/-- The second slot is the first one, or one for a box inside of its box. -/
def Inside (m : Metrics) (s t : Slot α) : Prop :=
  Relation.ReflTransGen (fun s t => t ∈ s.slots m) s t

/-- Validity passes to all slots inside of a slot, however deep. -/
theorem Inside.valid {s t : Slot α} (h : Inside m s t) (hs : s.Valid m) : t.Valid m := by
  induction h with
  | refl => exact hs
  | tail _ ht ih => exact valid_of_mem_slots ih ht

/-- The boxes of a placed tree are those of the slots inside of the one of the tree. -/
theorem mem_boxes_place_iff {s : Slot α} (h : s.Valid m) {b : Box Placement} :
    b ∈ (s.place m).boxes ↔ ∃ t, Inside m s t ∧ t.place m = b := by
  induction h with
  | step s hs ih =>
    rw [boxes_place hs, List.mem_cons, List.mem_flatMap]
    constructor
    · rintro (rfl | ⟨t, ht, hb⟩)
      · exact ⟨s, .refl, rfl⟩
      · obtain ⟨u, hu, rfl⟩ := (ih t ht).mp hb
        exact ⟨u, .head ht hu, rfl⟩
    · rintro ⟨u, hu, rfl⟩
      rcases Relation.ReflTransGen.cases_head hu with rfl | ⟨t, ht, hu⟩
      · exact Or.inl rfl
      · exact Or.inr ⟨t, ht, (ih t ht).mpr ⟨u, hu, rfl⟩⟩

end Slot

/-- Wherever a box that the builders give is placed, on a track that is long enough, the tracks of
every box in the tree land where they have to. -/
theorem Box.tracked_place {α : Type} [Inhabited α] {m : Metrics} (hm : m.Sized) {box : Box α}
    (hbox : box.Built m) (x y : Int) {span : Int} (hspan : box.width ≤ span) :
    (∀ b, b ∈ (box.place m x y span).boxes ↔
      ∃ s, Slot.Inside m ⟨x, y, span, box⟩ s ∧ s.place m = b) ∧
    ∀ s, Slot.Inside m ⟨x, y, span, box⟩ s → s.Tracked m := by
  have hvalid : Slot.Valid m ⟨x, y, span, box⟩ := ⟨hbox, hspan⟩
  exact ⟨fun b => Slot.mem_boxes_place_iff hvalid, fun s hs =>
    Slot.tracked_of_valid hm (hs.valid hvalid)⟩

/-- A loop with a track past it, in a span that is wider. -/
theorem Box.tracked_place_sample :
    let item : Box Unit := .repeated .standard (.ofLabel .standard .terminal "item" 34)
    let box : Box Unit := .stacked .standard [.ofItems .standard .bypass []] item []
    Metrics.standard.Sized ∧ box.Built .standard ∧ box.width ≤ 150 ∧
      (∀ b, b ∈ (box.place .standard 7 5 150).boxes ↔
        ∃ s, Slot.Inside .standard ⟨7, 5, 150, box⟩ s ∧ s.place .standard = b) ∧
      ∀ s, Slot.Inside .standard ⟨7, 5, 150, box⟩ s → s.Tracked .standard := by
  intro item box
  have hm : Metrics.standard.Sized := Metrics.spaced_standard.toNonneg.sized
  have hitem : item.Built .standard := .repeated (.label .terminal "item" (by decide))
  have hbypass : (Box.ofItems .standard .bypass [] : Box Unit).Built .standard :=
    .line .bypass fun _ h => absurd h List.not_mem_nil
  have hbox : box.Built .standard :=
    .stacked (List.forall_mem_cons.mpr ⟨hbypass, List.forall_mem_singleton.mpr hitem⟩)
  have hspan : box.width ≤ 150 := by decide
  exact ⟨hm, hbox, hspan, Box.tracked_place hm hbox 7 5 hspan⟩

end SyntaxDiagram
