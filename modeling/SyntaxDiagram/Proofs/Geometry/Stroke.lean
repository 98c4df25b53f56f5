import SyntaxDiagram.Proofs.Geometry.Rect

/-!
# Where connectors run

`Connector.points` lists the points between the moves of a connector, and `Connector.strokes` the
rectangles that its moves span; an arc stays inside of its one.  A connector that has its points in
a rectangle has its strokes there too (`Connector.StaysIn.strokes_subset`).  Most connectors drawn
by `Box.place` join two points without leaving the rectangle that these span (`Connector.Joins`);
only the track back of a loop goes around (`loopTracks_spec`).
-/

namespace SyntaxDiagram

/-! ### Moves -/

namespace Move

@[simp]
theorem apply_horizontal (radius : Int) (p : Point) (distance : Int) :
    apply radius p (.horizontal distance) = (p.1 + distance, p.2) := by
  simp [apply, delta]

@[simp]
theorem apply_vertical (radius : Int) (p : Point) (distance : Int) :
    apply radius p (.vertical distance) = (p.1, p.2 + distance) := by
  simp [apply, delta]

@[simp]
theorem apply_arc (radius : Int) (p : Point) (sweep : Sweep) :
    apply radius p (.arc sweep) =
      (p.1 + (sweep.delta radius).1, p.2 + (sweep.delta radius).2) := rfl

end Move

namespace Sweep

variable (radius : Int)

@[simp] theorem delta_ne : ne.delta radius = (radius, radius) := by simp [delta, ne]
@[simp] theorem delta_es : es.delta radius = (-radius, radius) := by simp [delta, es]
@[simp] theorem delta_sw : sw.delta radius = (-radius, -radius) := by simp [delta, sw]
@[simp] theorem delta_wn : wn.delta radius = (radius, -radius) := by simp [delta, wn]
@[simp] theorem delta_se : se.delta radius = (radius, -radius) := by simp [delta, se]
@[simp] theorem delta_ws : ws.delta radius = (radius, radius) := by simp [delta, ws]

end Sweep

namespace Connector

/-! ### Points and strokes -/

/-- The two ends of each of some moves that start at a point. -/
def legsFrom (radius : Int) (p : Point) : List Move → List (Point × Point)
  | [] => []
  | move :: rest => (p, move.apply radius p) :: legsFrom radius (move.apply radius p) rest

/-- The two ends of each move of a connector. -/
def legs (radius : Int) (c : Connector) : List (Point × Point) :=
  legsFrom radius c.start c.moves

/-- Where a connector starts, and where each of its moves ends. -/
def points (radius : Int) (c : Connector) : List Point :=
  c.start :: (c.legs radius).map Prod.snd

/-- The rectangles that the moves of a connector span: a straight move is the whole of its one, an
arc stays inside. -/
def strokes (radius : Int) (c : Connector) : List Rect :=
  (c.legs radius).map fun leg => .spanning leg.1 leg.2

theorem start_mem_points (radius : Int) (c : Connector) : c.start ∈ c.points radius :=
  List.mem_cons_self ..

theorem finish_mem_points (radius : Int) (c : Connector) : c.finish radius ∈ c.points radius := by
  rw [finish, points, legs]
  -- where the moves start does not matter
  generalize c.start = p
  induction c.moves generalizing p with
  | nil => exact List.mem_cons_self ..
  | cons move rest ih =>
    simp only [List.foldl_cons, legsFrom, List.map_cons]
    exact List.mem_cons_of_mem _ (ih _)

/-- Each leg of a connector runs between two of its points. -/
theorem ends_mem_points {radius : Int} {c : Connector} {leg : Point × Point}
    (h : leg ∈ c.legs radius) : leg.1 ∈ c.points radius ∧ leg.2 ∈ c.points radius := by
  refine ⟨?_, List.mem_cons_of_mem _ (List.mem_map_of_mem h)⟩
  rw [legs] at h
  rw [points, legs]
  revert h
  generalize c.start = p
  induction c.moves generalizing p with
  | nil => simp [legsFrom]
  | cons move rest ih =>
    intro h
    simp only [legsFrom, List.map_cons] at h ⊢
    rcases List.mem_cons.mp h with rfl | h
    · exact List.mem_cons_self ..
    · exact List.mem_cons_of_mem _ (ih _ h)

/-! ### Rectangles around and beside connectors -/

section rect

variable {radius : Int} {c : Connector} {r r' : Rect}

/-- No point of the connector is outside of the rectangle. -/
def StaysIn (radius : Int) (r : Rect) (c : Connector) : Prop :=
  ∀ p ∈ c.points radius, p ∈ r

/-- Each stroke of the connector is on one side of the rectangle. -/
def Skirts (radius : Int) (r : Rect) (c : Connector) : Prop :=
  ∀ stroke ∈ c.strokes radius, stroke.Skirts r

/-- A connector whose points are in a rectangle strokes nothing outside of it. -/
theorem StaysIn.strokes_subset (h : c.StaysIn radius r) :
    ∀ stroke ∈ c.strokes radius, stroke ⊆ r := by
  intro stroke hstroke
  obtain ⟨leg, hleg, rfl⟩ := List.mem_map.mp hstroke
  obtain ⟨h₁, h₂⟩ := ends_mem_points hleg
  exact Rect.spanning_subset (h _ h₁) (h _ h₂)

/-- What stays in a rectangle stays in a larger one. -/
theorem StaysIn.mono (h : c.StaysIn radius r) (hr : r ⊆ r') : c.StaysIn radius r' :=
  fun p hp => Rect.mem_of_subset hr (h p hp)

/-- What skirts a rectangle skirts a smaller one. -/
theorem Skirts.mono (h : c.Skirts radius r) (hr : r' ⊆ r) : c.Skirts radius r' :=
  fun stroke hstroke => (h stroke hstroke).mono (Rect.Subset.refl _) hr

/-- What stays in one rectangle skirts every rectangle that the first one skirts. -/
theorem StaysIn.skirts (h : c.StaysIn radius r) (hr : r.Skirts r') : c.Skirts radius r' :=
  fun stroke hstroke => hr.mono (h.strokes_subset stroke hstroke) (Rect.Subset.refl _)

end rect

/-! ### Joining two points -/

/-- The connector leads from `p` to `q` and stays in the rectangle that they span. -/
structure Joins (radius : Int) (p q : Point) (c : Connector) : Prop where
  start_eq : c.start = p
  finish_eq : c.finish radius = q
  staysIn_spanning : c.StaysIn radius (.spanning p q)

section joins

variable {radius : Int} {p q : Point} {c : Connector} {r : Rect}

/-- A connector that joins two points of a rectangle stays in it. -/
theorem Joins.staysIn (h : c.Joins radius p q) (hp : p ∈ r) (hq : q ∈ r) : c.StaysIn radius r :=
  h.staysIn_spanning.mono (Rect.spanning_subset hp hq)

/-- A connector skirts what the rectangle between its ends skirts. -/
theorem Joins.skirts (h : c.Joins radius p q) (hr : (Rect.spanning p q).Skirts r) :
    c.Skirts radius r :=
  h.staysIn_spanning.skirts hr

end joins

theorem joins_horizontal (radius x y : Int) (role : Role) (distance : Int) :
    (horizontal x y role distance).Joins radius (x, y) (x + distance, y) where
  start_eq := rfl
  finish_eq := by simp [finish, horizontal, start]
  staysIn_spanning := by
    simp only [StaysIn, points, legs, legsFrom, horizontal, start, Move.apply_horizontal,
      List.map_cons, List.map_nil, List.forall_mem_cons, Rect.mem_iff, Rect.spanning]
    simp

/-- The clamp of a track to the right does nothing when the distance is not negative. -/
theorem right_eq_horizontal {distance : Int} (h : 0 ≤ distance) (x y : Int) (role : Role) :
    right x y role distance = horizontal x y role distance := by
  rw [right, horizontal, Move.right, max_eq_right h]

/-- A track to the right joins its start and the point that far away. -/
theorem joins_right {distance : Int} (h : 0 ≤ distance) (radius x y : Int) (role : Role) :
    (right x y role distance).Joins radius (x, y) (x + distance, y) := by
  rw [right_eq_horizontal h]
  exact joins_horizontal radius x y role distance

/-- A bent track that rises. -/
theorem joins_rising {radius : Int} (hr : 0 ≤ radius) (x y : Int) (role : Role) (height : Int)
    (h : 2 * radius ≤ height) :
    (Connector.mk x y role [.arc .se, .up (height - 2 * radius), .arc .wn]).Joins radius
      (x, y) (x + 2 * radius, y - height) where
  start_eq := rfl
  finish_eq := by
    simp only [finish, start, List.foldl_cons, List.foldl_nil, Move.apply_arc, Sweep.delta_se,
      Move.up, Move.apply_vertical, Sweep.delta_wn, Prod.mk.injEq]
    omega
  staysIn_spanning := by
    simp only [StaysIn, points, legs, legsFrom, start, Move.apply_arc, Sweep.delta_se, Move.up,
      Move.apply_vertical, Sweep.delta_wn, List.map_cons, List.map_nil, List.forall_mem_cons,
      Rect.mem_iff, Rect.spanning]
    refine ⟨?_, ?_, ?_, ?_, by simp⟩ <;> omega

/-- A bent track that falls. -/
theorem joins_falling {radius : Int} (hr : 0 ≤ radius) (x y : Int) (role : Role) (height : Int)
    (h : 2 * radius ≤ height) :
    (Connector.mk x y role [.arc .ne, .down (height - 2 * radius), .arc .ws]).Joins radius
      (x, y) (x + 2 * radius, y + height) where
  start_eq := rfl
  finish_eq := by
    simp only [finish, start, List.foldl_cons, List.foldl_nil, Move.apply_arc, Sweep.delta_ne,
      Move.down, Move.apply_vertical, Sweep.delta_ws, Prod.mk.injEq]
    omega
  staysIn_spanning := by
    simp only [StaysIn, points, legs, legsFrom, start, Move.apply_arc, Sweep.delta_ne, Move.down,
      Move.apply_vertical, Sweep.delta_ws, List.map_cons, List.map_nil, List.forall_mem_cons,
      Rect.mem_iff, Rect.spanning]
    refine ⟨?_, ?_, ?_, ?_, by simp⟩ <;> omega

end Connector

namespace Box

open Connector

/-! ### Tracks of a box -/

variable {m : Metrics}

/-- No gap beside what fits is negative. -/
theorem gaps_nonneg {span own : Int} (alignment : Alignment) (h : own ≤ span) :
    0 ≤ (alignment.gaps span own).1 ∧ 0 ≤ (alignment.gaps span own).2 := by
  cases alignment with
  | left => exact ⟨le_rfl, by dsimp only [Alignment.gaps]; omega⟩
  | right => exact ⟨by dsimp only [Alignment.gaps]; omega, le_rfl⟩
  | center =>
    dsimp only [Alignment.gaps]
    rw [Int.fdiv_eq_ediv_of_nonneg _ (by omega)]
    omega

/-- What fills its span has no gap on either side. -/
theorem gaps_self (alignment : Alignment) (width : Int) : alignment.gaps width width = (0, 0) := by
  cases alignment <;> simp [Alignment.gaps]

theorem leftGap_self (width : Int) : leftGap m width width = 0 := by
  rw [leftGap, gaps_self]

theorem gapTracks_self (role : Role) (x y width : Int) :
    gapTracks m role x y width width = [] := by
  simp [gapTracks, gaps_self]

theorem leftGap_nonneg {span own : Int} (h : own ≤ span) : 0 ≤ leftGap m span own :=
  (gaps_nonneg m.alignment h).1

/-- What fits ends within its span, after the left gap. -/
theorem leftGap_add_le {span own : Int} (h : own ≤ span) : leftGap m span own + own ≤ span := by
  have h₁ := (gaps_nonneg m.alignment h).2
  have h₂ := m.alignment.gaps_sum span own
  rw [leftGap]
  omega

/-- A gap track joins one end of the span and the side of the item that faces it. -/
theorem joins_of_mem_gapTracks {role : Role} {x y span own : Int} {c : Connector}
    (h : c ∈ gapTracks m role x y span own) (radius : Int) :
    c.Joins radius (x, y) (x + leftGap m span own, y) ∨
      c.Joins radius (x + leftGap m span own + own, y) (x + span, y) := by
  have hsum := m.alignment.gaps_sum span own
  rw [leftGap]
  -- to the left of the box or to the right of it, where the gaps and the box make up the span
  simp only [gapTracks, List.mem_append] at h
  rcases h with h | h <;> split_ifs at h with hzero
  · exact absurd h List.not_mem_nil
  · obtain rfl := List.mem_singleton.mp h
    exact Or.inl (joins_horizontal ..)
  · exact absurd h List.not_mem_nil
  · obtain rfl := List.mem_singleton.mp h
    have hend : x + span = x + (m.alignment.gaps span own).1 + own +
        (m.alignment.gaps span own).2 := by omega
    rw [hend]
    exact Or.inr (joins_horizontal ..)

/-- The ends of the two tracks to and from an item of a branch, at an offset with room for their
arcs. -/
theorem joins_itemTracks (hr : 0 ≤ m.arcRadius) {offset : Int}
    (ho : offset = 0 ∨ 2 * m.arcRadius ≤ -offset ∨ 2 * m.arcRadius ≤ offset)
    (x y inner : Int) (role : Role) :
    ∃ there back, itemTracks m x y inner offset role = [there, back] ∧
      there.Joins m.arcRadius (x, y) (x + 2 * m.arcRadius, y + offset) ∧
      back.Joins m.arcRadius (x + 2 * m.arcRadius + inner, y + offset)
        (x + 2 * m.arcRadius + inner + 2 * m.arcRadius, y) := by
  -- above the main line, on it, and below it
  rcases lt_trichotomy offset 0 with hneg | rfl | hpos
  · have hthere := joins_rising hr x y role (-offset) (by omega)
    have hback := joins_falling hr (x + 2 * m.arcRadius + inner) (y + offset) role (-offset)
      (by omega)
    rw [sub_neg_eq_add] at hthere
    rw [add_neg_cancel_right] at hback
    exact ⟨_, _, by rw [itemTracks, if_pos hneg], hthere, hback⟩
  · have h2r : 0 ≤ 2 * m.arcRadius := by omega
    rw [add_zero]
    exact ⟨_, _, by rw [itemTracks, if_neg (by omega), if_pos rfl], joins_right h2r ..,
      joins_right h2r ..⟩
  · have hthere := joins_falling hr x y role offset (by omega)
    have hback := joins_rising hr (x + 2 * m.arcRadius + inner) (y + offset) role offset
      (by omega)
    rw [add_sub_cancel_right] at hback
    exact ⟨_, _, by rw [itemTracks, if_neg (by omega), if_neg (by omega)], hthere, hback⟩

/-- The tracks of a loop: one to its item, one from it, and one from its exit back to its entry.
The last one goes around the item: it stays inside of the loop, and each of its moves is on one side
of the item, of which it keeps clear as long as the item does not reach below the track back. -/
theorem loopTracks_spec (hr : 0 ≤ m.arcRadius) (x y width offset : Int)
    (hw : 2 * m.arcRadius ≤ width) (ho : 2 * m.arcRadius ≤ offset) :
    ∃ there back around, loopTracks m x y width offset = [there, back, around] ∧
      there.Joins m.arcRadius (x, y) (x + m.arcRadius, y) ∧
      back.Joins m.arcRadius (x + width - m.arcRadius, y) (x + width, y) ∧
      around.start = (x + width - m.arcRadius, y) ∧
      around.finish m.arcRadius = (x + m.arcRadius, y) ∧
      around.StaysIn m.arcRadius ⟨x, x + width, y, y + offset⟩ ∧
      ∀ up down, down ≤ offset →
        around.Skirts m.arcRadius ⟨x + m.arcRadius, x + width - m.arcRadius, y - up, y + down⟩ := by
  refine ⟨_, _, _, rfl, joins_right hr .., ?_, rfl, ?_, ?_, ?_⟩
  · have h := joins_right hr m.arcRadius (x + width - m.arcRadius) y .line
    rwa [sub_add_cancel] at h
  · simp only [finish, start, List.foldl_cons, List.foldl_nil, Move.apply_arc, Sweep.delta_ne,
      Move.down, Move.apply_vertical, Sweep.delta_es, Move.left, Move.apply_horizontal,
      Sweep.delta_sw, Move.up, Sweep.delta_wn, Prod.mk.injEq]
    omega
  · simp only [StaysIn, points, legs, legsFrom, start, Move.apply_arc, Sweep.delta_ne, Move.down,
      Move.apply_vertical, Sweep.delta_es, Move.left, Move.apply_horizontal, Sweep.delta_sw,
      Move.up, Sweep.delta_wn, List.map_cons, List.map_nil, List.forall_mem_cons, Rect.mem_iff]
    refine ⟨?_, ?_, ?_, ?_, ?_, ?_, ?_, ?_, by simp⟩ <;> omega
  · -- seven moves: two arcs on the right, two on the left, and three straight ones in between
    intro up down hdown
    simp only [Skirts, strokes, legs, legsFrom, start, Move.apply_arc, Sweep.delta_ne, Move.down,
      Move.apply_vertical, Sweep.delta_es, Move.left, Move.apply_horizontal, Sweep.delta_sw,
      Move.up, Sweep.delta_wn, List.map_cons, List.map_nil, List.forall_mem_cons, Rect.Skirts,
      Rect.spanning]
    refine ⟨?_, ?_, ?_, ?_, ?_, ?_, ?_, by simp⟩ <;> omega

end Box

end SyntaxDiagram
