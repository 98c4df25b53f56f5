import SyntaxDiagram.Proofs.Box.Language
import SyntaxDiagram.Proofs.Geometry.Containment
import SyntaxDiagram.Proofs.Track.Route

/-!
# The routes of a drawing

The track of a drawing has an edge for each connector, and one with its token for each label box.
Within its slot a placed box is a fragment with the language of the box (`Slot.fragment_place`), so
the routes from the start of a drawing to its end spell the words of the entry and no others
(`Entry.route_layout`).
-/

namespace SyntaxDiagram

/-! ### Edges -/

/-- The edge of a connector. -/
def Connector.edge (radius : Int) (c : Connector) : Edge :=
  ⟨c.start, c.finish radius, none⟩

/-- The edge of a connector that joins two points leads from one to the other, without a token. -/
theorem Connector.Joins.edge_eq {radius : Int} {p q : Point} {c : Connector}
    (h : c.Joins radius p q) : c.edge radius = ⟨p, q, none⟩ := by
  rw [edge, h.start_eq, h.finish_eq]

/-- The edges of some connectors. -/
def trackEdges (radius : Int) (tracks : List Connector) : Set Edge :=
  {e | ∃ c ∈ tracks, c.edge radius = e}

namespace Box

/-- The edge of a label box. -/
def edge? : Box Placement → Option Edge
  | .label frame kind text =>
    some ⟨(Box.label frame kind text).entryPoint, (Box.label frame kind text).exitPoint,
      some (kind.token text)⟩
  | _ => none

/-- The edges of a placed tree. -/
def edges (radius : Int) (box : Box Placement) : Set Edge :=
  trackEdges radius box.connectors ∪ {e | ∃ b ∈ box.boxes, b.edge? = some e}

end Box

section trackEdges

variable {radius : Int}

@[simp]
theorem trackEdges_nil : trackEdges radius [] = ∅ := by
  simp [trackEdges]

@[simp]
theorem trackEdges_cons (c : Connector) (rest : List Connector) :
    trackEdges radius (c :: rest) = {c.edge radius} ∪ trackEdges radius rest := by
  ext e
  simp [trackEdges, eq_comm]

theorem trackEdges_append (tracks tracks' : List Connector) :
    trackEdges radius (tracks ++ tracks') =
      trackEdges radius tracks ∪ trackEdges radius tracks' := by
  ext e
  simp [trackEdges, or_and_right, exists_or]

end trackEdges

/-! ### Fragments of track -/

namespace Fragment

variable {radius : Int} {p q : Point} {c : Connector}

/-- One connector that leads forwards is a fragment on which nothing is read. -/
theorem ofJoins (h : c.Joins radius p q) (hpq : p.1 < q.1) :
    Fragment (trackEdges radius [c]) p q 1 :=
  (single ⟨p, q, Option.none⟩ hpq).congr (by simp [h.edge_eq]) rfl

/-- The track that fills a gap, which may be nothing. -/
theorem gap (radius x y : Int) (role : Role) {distance : Int} (h : 0 ≤ distance) :
    Fragment (trackEdges radius (if distance = 0 then [] else [.horizontal x y role distance]))
      (x, y) (x + distance, y) 1 := by
  split_ifs with hzero
  · subst hzero
    rw [add_zero, trackEdges_nil]
    exact empty (x, y)
  · refine ofJoins (Connector.joins_horizontal ..) ?_
    dsimp only
    omega

/-- What stands in a wider span has track on both sides of it. -/
theorem gapTracks (radius : Int) {m : Metrics} (role : Role) {x y span own : Int}
    (hfits : own ≤ span) {E : Set Edge} {L : Language Token}
    (h : Fragment E (x + Box.leftGap m span own, y) (x + Box.leftGap m span own + own, y) L) :
    Fragment (trackEdges radius (Box.gapTracks m role x y span own) ∪ E)
      (x, y) (x + span, y) L := by
  obtain ⟨hleft, hright⟩ := Box.gaps_nonneg m.alignment hfits
  have hsum := m.alignment.gaps_sum span own
  have hend : x + span =
      x + Box.leftGap m span own + own + (m.alignment.gaps span own).2 := by
    rw [Box.leftGap]
    omega
  have hseries := ((gap radius x y role hleft).series h).series
    (gap radius (x + Box.leftGap m span own + own) y role hright)
  rw [hend]
  refine hseries.congr ?_ (by rw [one_mul, mul_one])
  rw [Box.gapTracks, trackEdges_append, Set.union_right_comm]
  rfl

end Fragment

/-! ### Placed boxes -/

namespace Slot

section edges

variable {α : Type} {m : Metrics}

/-- The edges of the boxes in some slots. -/
def edgesOf (m : Metrics) (slots : List (Slot α)) : Set Edge :=
  {e | ∃ t ∈ slots, e ∈ (t.place m).edges m.arcRadius}

@[simp]
theorem edgesOf_nil : edgesOf m ([] : List (Slot α)) = ∅ := by
  simp [edgesOf]

@[simp]
theorem edgesOf_cons (t : Slot α) (rest : List (Slot α)) :
    edgesOf m (t :: rest) = (t.place m).edges m.arcRadius ∪ edgesOf m rest := by
  ext e
  simp [edgesOf]

/-- The box in the slot is a fragment from one end of the slot to the other one. -/
def Runs (m : Metrics) (s : Slot α) : Prop :=
  Fragment ((s.place m).edges m.arcRadius) (s.x, s.y) (s.x + s.span, s.y) s.item.language

/-- The item of a branch, with the tracks to it and from it. -/
theorem fragment_tier (hr : 0 < m.arcRadius) {x y inner : Int} {tier : Int × Box α} (role : Role)
    (ho : tier.1 = 0 ∨ 2 * m.arcRadius ≤ -tier.1 ∨ 2 * m.arcRadius ≤ tier.1)
    (h : Runs m ⟨x + 2 * m.arcRadius, y + tier.1, inner, tier.2⟩) :
    Fragment
      (trackEdges m.arcRadius (Box.itemTracks m x y inner tier.1 role) ∪
        (place m ⟨x + 2 * m.arcRadius, y + tier.1, inner, tier.2⟩).edges m.arcRadius)
      (x, y) (x + 2 * m.arcRadius + inner + 2 * m.arcRadius, y) tier.2.language := by
  obtain ⟨there, back, htracks, hthere, hback⟩ := Box.joins_itemTracks hr.le ho x y inner role
  have hseries := ((Fragment.ofJoins hthere (by dsimp only; omega)).series h).series
    (Fragment.ofJoins hback (by dsimp only; omega))
  refine hseries.congr ?_ (by rw [one_mul, mul_one])
  rw [htracks]
  simp only [trackEdges_cons, trackEdges_nil, Set.union_empty]
  ac_rfl

end edges

variable {α : Type} [Inhabited α] {m : Metrics} {s : Slot α}

/-- The edges of a placed tree are those of the tracks of the box itself, of the box if it is a
label, and of the boxes in the slots of its children. -/
theorem edges_place (h : s.Valid m) :
    (s.place m).edges m.arcRadius =
      trackEdges m.arcRadius (s.tracks m) ∪ {e | (s.place m).edge? = some e} ∪
        edgesOf m (s.slots m) := by
  have hconnectors := connectors_place h
  have hboxes := boxes_place h
  ext e
  simp only [Box.edges, edgesOf, trackEdges, hconnectors, hboxes, Set.mem_union, Set.mem_ofPred_eq,
    List.mem_append, List.mem_cons, List.mem_flatMap]
  constructor
  · rintro (⟨c, hc | ⟨t, ht, hc⟩, he⟩ | ⟨b, rfl | ⟨t, ht, hb⟩, he⟩)
    · exact Or.inl (Or.inl ⟨c, hc, he⟩)
    · exact Or.inr ⟨t, ht, Or.inl ⟨c, hc, he⟩⟩
    · exact Or.inl (Or.inr he)
    · exact Or.inr ⟨t, ht, Or.inr ⟨b, hb, he⟩⟩
  · rintro ((⟨c, hc, he⟩ | he) | ⟨t, ht, ⟨c, hc, he⟩ | ⟨b, hb, he⟩⟩)
    · exact Or.inl ⟨c, Or.inl hc, he⟩
    · exact Or.inr ⟨_, Or.inl rfl, he⟩
    · exact Or.inl ⟨c, Or.inr ⟨t, ht, hc⟩, he⟩
    · exact Or.inr ⟨b, Or.inr ⟨t, ht, hb⟩, he⟩

/-- The edges of a placed tree join points of its slot. -/
theorem mem_region_of_mem_edges (hm : m.Nonneg) (h : s.Valid m) {e : Edge}
    (he : e ∈ (s.place m).edges m.arcRadius) : e.source ∈ s.region ∧ e.target ∈ s.region := by
  rcases he with ⟨c, hc, rfl⟩ | ⟨b, hb, he⟩
  · have hstays := staysIn_of_mem_connectors hm h hc
    exact ⟨hstays _ (c.start_mem_points _), hstays _ (c.finish_mem_points _)⟩
  · have hrect := rect_subset_of_mem_boxes hm h hb
    have hsizes := nonneg_of_mem_boxes hm h hb
    cases b with
    | label frame kind text =>
      obtain rfl := Option.some.inj he
      refine ⟨Rect.mem_of_subset hrect ?_, Rect.mem_of_subset hrect ?_⟩
      · simp only [Box.rect, Box.entryPoint, Rect.mem_iff]
        omega
      · simp only [Box.rect, Box.exitPoint, Rect.mem_iff]
        omega
    | _ => exact absurd he (by simp [Box.edge?])

/-! ### Fragments of boxes -/

/-- A box is a fragment if it is one without the gaps on its sides. -/
theorem Runs.of_gapTracks {role : Role} {tracks : List Connector} (h : s.Valid m)
    (hlabel : (s.place m).edge? = none)
    (htracks : s.tracks m =
      Box.gapTracks m role s.x s.y s.span s.item.width ++ tracks)
    (hfragment : Fragment (trackEdges m.arcRadius tracks ∪ edgesOf m (s.slots m))
      (s.x + Box.leftGap m s.span s.item.width, s.y)
      (s.x + Box.leftGap m s.span s.item.width + s.item.width, s.y) s.item.language) :
    s.Runs m := by
  refine (hfragment.gapTracks m.arcRadius role h.fits).congr ?_ rfl
  rw [edges_place h, htracks, trackEdges_append, hlabel, Set.union_assoc, Set.union_assoc]
  simp [edgesOf]

/-- A label is a fragment on which its token is read. -/
theorem runs_label {x y span : Int} {kind : LabelKind} {text : String} {textWidth : Int}
    (hm : m.Nonneg) (h : Valid m ⟨x, y, span, (.ofLabel m kind text textWidth : Box α)⟩)
    (hpos : 0 < textWidth) : Runs m ⟨x, y, span, (.ofLabel m kind text textWidth : Box α)⟩ := by
  -- a label of no width would be an edge from a point to itself
  have hwidth : 0 < (Box.ofLabel m kind text textWidth : Box α).width := by
    have hpadding := hm.labelPadding
    dsimp only [Box.ofLabel, Box.newFrame, Box.width, Box.frame]
    omega
  have hsingle := Fragment.single
    ⟨(x + Box.leftGap m span (Box.ofLabel m kind text textWidth : Box α).width, y),
      (x + Box.leftGap m span (Box.ofLabel m kind text textWidth : Box α).width +
        (Box.ofLabel m kind text textWidth : Box α).width, y), some (kind.token text)⟩
    (by dsimp only; omega)
  refine (hsingle.gapTracks m.arcRadius .line h.fits).congr ?_ ?_
  · have hslots : slots m ⟨x, y, span, (.ofLabel m kind text textWidth : Box α)⟩ = [] := rfl
    have hedge : (place m ⟨x, y, span, (.ofLabel m kind text textWidth : Box α)⟩).edge? = some
      ⟨(x + Box.leftGap m span (Box.ofLabel m kind text textWidth : Box α).width, y),
        (x + Box.leftGap m span (Box.ofLabel m kind text textWidth : Box α).width +
          (Box.ofLabel m kind text textWidth : Box α).width, y), some (kind.token text)⟩ := rfl
    rw [edges_place h, tracks_ofLabel, hslots, hedge]
    ext e
    simp [eq_comm]
  · rw [Box.ofLabel, Box.language]
    rfl

/-- A bare track is a fragment on which nothing is read. -/
theorem runs_bare {x y span : Int} {role : Role}
    (h : Valid m ⟨x, y, span, (.ofItems m role [] : Box α)⟩) :
    Runs m ⟨x, y, span, (.ofItems m role [] : Box α)⟩ := by
  have hspan : 0 ≤ span := h.fits
  have hgap := Fragment.gap m.arcRadius x y role hspan
  refine hgap.congr ?_ (Box.language_ofItems role [])
  have hslots : slots m ⟨x, y, span, (.ofItems m role [] : Box α)⟩ = [] := rfl
  have hedge : (place m ⟨x, y, span, (.ofItems m role [] : Box α)⟩).edge? = none := rfl
  rw [edges_place h, tracks_ofItems_nil, hslots, hedge, Connector.right_eq_horizontal hspan]
  simp

/-- The items of a line, with the tracks between them. -/
theorem fragment_row (hm : m.Spaced) (role : Role) {x y : Int} {first : Box α}
    {rest : List (Box α)} (h : ∀ t ∈ row m x y (first :: rest), t.Runs m) :
    Fragment
      (trackEdges m.arcRadius
          (Box.joinTracks m role (x + first.width) y (rest.map Box.width)) ∪
        edgesOf m (row m x y (first :: rest)))
      (x, y) (x + (Box.ofItems m role (first :: rest)).width, y)
      ((first :: rest).map Box.language).prod := by
  induction rest generalizing x first with
  | nil =>
    have hfirst := h _ (List.mem_cons_self ..)
    rw [Box.width_ofItems_singleton]
    refine hfirst.congr ?_ (by simp)
    simp [row, Box.joinTracks]
  | cons second rest ih =>
    -- the first item, the track behind it, and then the line of the others
    obtain ⟨hfirst, hrest⟩ := List.forall_mem_cons.mp h
    have hjoin := Fragment.ofJoins
      (Connector.joins_horizontal m.arcRadius (x + first.width) y role m.itemGap)
      (by have := hm.itemGap_pos; dsimp only; omega)
    have hseries := (Fragment.series hfirst hjoin).series (ih hrest)
    rw [Box.width_ofItems_cons_cons, ← add_assoc, ← add_assoc]
    refine hseries.congr ?_ ?_
    · rw [List.map_cons, Box.joinTracks, trackEdges_cons, row, edgesOf_cons]
      simp only [trackEdges_cons, trackEdges_nil, Set.union_empty]
      ac_rfl
    · rw [List.map_cons, List.prod_cons, mul_one]

/-- A line is a fragment if its items are: they are passed one after the other. -/
theorem runs_line {x y span : Int} {role : Role} {first : Box α} {rest : List (Box α)}
    (hm : m.Spaced) (h : Valid m ⟨x, y, span, .ofItems m role (first :: rest)⟩)
    (ih : ∀ t ∈ slots m ⟨x, y, span, .ofItems m role (first :: rest)⟩, t.Runs m) :
    Runs m ⟨x, y, span, .ofItems m role (first :: rest)⟩ := by
  refine Runs.of_gapTracks h rfl (tracks_ofItems_cons ..) ?_
  rw [slots_ofItems] at ih ⊢
  exact (fragment_row hm role ih).congr rfl (Box.language_ofItems role (first :: rest))

/-- A loop is a fragment if its item is: the item is passed once and any number of times more. -/
theorem runs_repeated {x y span : Int} {item : Box α} (hm : m.Spaced)
    (h : Valid m ⟨x, y, span, .repeated m item⟩)
    (ih : ∀ t ∈ slots m ⟨x, y, span, .repeated m item⟩, t.Runs m) :
    Runs m ⟨x, y, span, .repeated m item⟩ := by
  have hr := hm.arcRadius_pos
  have hitem := h.nonneg_children hm.toNonneg item (List.mem_cons_self ..)
  have hwidth : (Box.repeated m item).width = item.width + 2 * m.arcRadius := rfl
  have hdown : (Box.repeated m item).down =
      max (2 * m.arcRadius) (item.down + m.separation) := rfl
  refine Runs.of_gapTracks h rfl (tracks_repeated ..) ?_
  rw [slots_repeated] at ih ⊢
  dsimp only
  generalize x + Box.leftGap m span (Box.repeated m item).width = x' at ih ⊢
  obtain ⟨there, back, around, htracks, hthere, hback, hstart, hfinish, -, -⟩ :=
    Box.loopTracks_spec hr.le x' y (Box.repeated m item).width (Box.repeated m item).down
      (by omega) (by omega)
  -- the track around the item leads back, from its end to its start
  have haround : around.edge m.arcRadius =
      ⟨(x' + (Box.repeated m item).width - m.arcRadius, y), (x' + m.arcRadius, y), none⟩ := by
    rw [Connector.edge, hstart, hfinish]
  have hinner : Fragment
      ((place m ⟨x' + m.arcRadius, y, (Box.repeated m item).width - 2 * m.arcRadius, item⟩).edges
        m.arcRadius)
      (x' + m.arcRadius, y) (x' + (Box.repeated m item).width - m.arcRadius, y) item.language := by
    have hend : x' + (Box.repeated m item).width - m.arcRadius =
        x' + m.arcRadius + ((Box.repeated m item).width - 2 * m.arcRadius) := by ring
    rw [hend]
    exact ih _ (List.mem_cons_self ..)
  refine (hinner.loop (s := (x', y)) (t := (x' + (Box.repeated m item).width, y)) ?_ ?_).congr ?_
    (Box.language_repeated item)
  · dsimp only
    omega
  · dsimp only
    omega
  · rw [htracks]
    simp only [trackEdges_cons, trackEdges_nil, hthere.edge_eq, hback.edge_eq, haround,
      edgesOf_cons, edgesOf_nil, Fragment.loopEdges, Set.union_empty, Set.insert_eq]

/-- The edges of the item of a branch join the ends of the branch and points of the slot. -/
theorem ends_of_mem_tier (hm : m.Nonneg) {x y inner : Int} {tier : Int × Box α} {role : Role}
    (ho : tier.1 = 0 ∨ 2 * m.arcRadius ≤ -tier.1 ∨ 2 * m.arcRadius ≤ tier.1)
    (h : Valid m ⟨x + 2 * m.arcRadius, y + tier.1, inner, tier.2⟩) {e : Edge}
    (he : e ∈ trackEdges m.arcRadius (Box.itemTracks m x y inner tier.1 role) ∪
      (place m ⟨x + 2 * m.arcRadius, y + tier.1, inner, tier.2⟩).edges m.arcRadius) :
    (e.source = (x, y) ∨
        e.source ∈ region ⟨x + 2 * m.arcRadius, y + tier.1, inner, tier.2⟩) ∧
      (e.target = (x + 2 * m.arcRadius + inner + 2 * m.arcRadius, y) ∨
        e.target ∈ region ⟨x + 2 * m.arcRadius, y + tier.1, inner, tier.2⟩) := by
  have hsizes := h.built.nonneg hm
  have hfits := h.fits
  dsimp only at hsizes hfits
  obtain ⟨there, back, htracks, hthere, hback⟩ :=
    Box.joins_itemTracks hm.arcRadius ho x y inner role
  rcases he with he | he
  · -- an edge of one of the two tracks, which lead from the left side in and out to the right
    rw [htracks] at he
    simp only [trackEdges_cons, trackEdges_nil, Set.union_empty, Set.mem_union,
      Set.mem_singleton_iff, hthere.edge_eq, hback.edge_eq] at he
    rcases he with rfl | rfl
    · refine ⟨Or.inl rfl, Or.inr ?_⟩
      simp only [region, Rect.mem_iff]
      omega
    · refine ⟨Or.inr ?_, Or.inl rfl⟩
      simp only [region, Rect.mem_iff]
      omega
  · -- an edge inside the item
    obtain ⟨hsource, htarget⟩ := mem_region_of_mem_edges hm h he
    exact ⟨Or.inr hsource, Or.inr htarget⟩

/-- A branch is a fragment if its items are: one of them is passed. -/
theorem runs_stacked {x y span : Int} {above below : List (Box α)} {main : Box α} (hm : m.Spaced)
    (h : Valid m ⟨x, y, span, .stacked m above main below⟩)
    (ih : ∀ t ∈ slots m ⟨x, y, span, .stacked m above main below⟩, t.Runs m) :
    Runs m ⟨x, y, span, .stacked m above main below⟩ := by
  have hr := hm.arcRadius_pos
  have hvalid := fun t ht => valid_of_mem_slots h (t := t) ht
  have hapart := pairwise_apart_slots hm h
  have hsizes := fun item hitem => (h.nonneg_children hm.toNonneg item hitem).2
  refine Runs.of_gapTracks h rfl (tracks_stacked ..) ?_
  have hoffset := fun t ht =>
    Box.offset_of_mem_tiers_stacked (m := m) hm.toNonneg.separation hsizes (t := t) ht
  have hlanguage : (Box.stacked m above main below).language =
      ((Box.stacked m above main below).tiers.map fun t => t.2.language).sum := by
    rw [Box.language_stacked, ← Box.map_snd_tiers_stacked (m := m), List.map_map]
    rfl
  have hwidth (x' : Int) : x' + (Box.stacked m above main below).width = x' + 2 * m.arcRadius +
      ((Box.stacked m above main below).width - 4 * m.arcRadius) + 2 * m.arcRadius := by ring
  have hpos : 0 < (Box.stacked m above main below).width := by
    have hmain := h.nonneg_children hm.toNonneg main (by simp [Box.stacked, Box.children])
    have := Box.width_le_of_mem_stacked (m := m) (show main ∈ above ++ main :: below by simp)
    omega
  -- from the slots to the tiers they are made of, over which the fragment is a sum
  rw [slots_stacked, stack] at ih hvalid hapart ⊢
  rw [List.pairwise_map] at hapart
  dsimp only
  generalize x + Box.leftGap m span (Box.stacked m above main below).width = x'
    at ih hvalid hapart ⊢
  rw [List.forall_mem_map] at ih hvalid
  have hsum := Fragment.sum (s := (x', y)) (t := (x' + (Box.stacked m above main below).width, y))
    (by dsimp only; omega)
    (fun t ht => hwidth x' ▸ fragment_tier hr t.2.branchRole (hoffset t ht) (ih t ht))
    (fun t ht e he => hwidth x' ▸ ends_of_mem_tier hm.toNonneg (hoffset t ht) (hvalid t ht) he)
    hapart
  refine hsum.congr ?_ hlanguage
  -- the tracks of all branches and then the items, against branch by branch
  ext e
  simp only [trackEdges, edgesOf, Set.mem_union, Set.mem_ofPred_eq, List.mem_flatMap, List.mem_map]
  constructor
  · rintro (⟨c, ⟨t, ht, hc⟩, he⟩ | ⟨_, ⟨t, ht, rfl⟩, he⟩)
    · exact ⟨t, ht, Or.inl ⟨c, hc, he⟩⟩
    · exact ⟨t, ht, Or.inr he⟩
  · rintro ⟨t, ht, ⟨c, hc, he⟩ | he⟩
    · exact Or.inl ⟨c, ⟨t, ht, hc⟩, he⟩
    · exact Or.inr ⟨_, ⟨t, ht, rfl⟩, he⟩

/-- A placed box is a fragment with its language from one end of its slot to the other one. -/
theorem fragment_place (hm : m.Spaced) (h : s.Valid m) : s.Runs m := by
  -- on the slots inside of slots, each of them valid again
  induction h with
  | step s hs ih =>
    cases hs with
    | label x y span kind text textWidth pos fits =>
      exact runs_label hm.toNonneg ⟨.label kind text pos, fits⟩ pos
    | line x y span role items built fits =>
      cases items with
      | nil => exact runs_bare ⟨.line role built, fits⟩
      | cons first rest => exact runs_line hm ⟨.line role built, fits⟩ ih
    | stacked x y span above main below built fits =>
      exact runs_stacked hm ⟨.stacked built, fits⟩ ih
    | repeated x y span item built fits => exact runs_repeated hm ⟨.repeated built, fits⟩ ih

end Slot

/-! ### Drawings -/

/-- The edges of a drawing: one for each connector, and one for each label box. -/
def Drawing.edges (m : Metrics) (d : Drawing) : Set Edge :=
  trackEdges m.arcRadius d.connectors ∪ {e | ∃ b ∈ d.boxes, b.edge? = some e}

/-- The drawing of a built diagram is a fragment with the language of its root. -/
theorem Diagram.fragment_draw {α : Type} [Inhabited α] {m : Metrics} (hm : m.Spaced)
    (htw : 0 < m.terminusWidth) (diagram : Diagram α) (h : diagram.root.Built m) :
    Fragment ((diagram.draw m).edges m) (diagram.draw m).start (diagram.draw m).finish
      diagram.root.language := by
  have hslot : (diagram.slot m).Valid m := ⟨h, le_rfl⟩
  have hroot := Slot.fragment_place hm hslot
  obtain ⟨first, last, htermini, hfirst, hlast⟩ := joins_termini hm.toNonneg diagram
  -- the track at the start, the box, and the track at the end
  have hstart : (diagram.draw m).start.1 < (diagram.slot m).x := by
    dsimp only [draw, slot]
    omega
  have hend : (diagram.slot m).x + (diagram.slot m).span < (diagram.draw m).finish.1 := by
    dsimp only [draw, slot]
    omega
  have hseries := ((Fragment.ofJoins hfirst hstart).series hroot).series
    (Fragment.ofJoins hlast hend)
  refine hseries.congr ?_ (by rw [one_mul, mul_one]; rfl)
  rw [Drawing.edges, Drawing.connectors, trackEdges_append, htermini]
  simp only [trackEdges_cons, trackEdges_nil, Set.union_empty]
  rw [root_draw, Box.edges, Drawing.boxes, root_draw]
  ac_rfl

namespace Entry

variable {m : Metrics} {measure : Measure} {entry : Entry} {d : Drawing}

/-- The routes through the drawing of an entry spell the words of the entry, all of them and no
others. -/
theorem route_layout (hm : m.Spaced) (htw : 0 < m.terminusWidth)
    (h : entry.layout m measure = .ok d) (word : List Token) :
    Route (d.edges m) d.start word d.finish ↔ word ∈ entry.language := by
  obtain ⟨root, hroot, rfl⟩ := exists_box_of_layout h
  have hfragment := Diagram.fragment_draw hm htw
    (Diagram.ofBox m entry root Diagram.standardPadding) (built_of_alternativesBox hroot)
  rw [hfragment.route_iff word, language, ← language_of_alternativesBox hroot]
  rfl

theorem route_layout_sample :
    Metrics.standard.Spaced ∧ 0 < Metrics.standard.terminusWidth ∧
      ∃ d, sample.layout .standard (.const (some (.int 9))) = .ok d ∧
        (Route (d.edges .standard) d.start [.reference "item", .literal "."] d.finish ↔
          [.reference "item", .literal "."] ∈ sample.language) :=
  ⟨Metrics.spaced_standard, by decide, _, rfl,
    route_layout Metrics.spaced_standard (by decide)
      (show sample.layout .standard (.const (some (.int 9))) = .ok _ from rfl) _⟩

end Entry

end SyntaxDiagram
