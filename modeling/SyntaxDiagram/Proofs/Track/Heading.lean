import SyntaxDiagram.Box.Place
import SyntaxDiagram.Proofs.Geometry.Stroke

/-!
# Which way a connector heads

A straight move keeps the heading of the track, and an arc turns it by a quarter circle
(`Move.Leads`); an arc that is not a mere point fits one heading only (`Move.Leads.unique`).  A
connector is smooth when each of its moves starts with the heading that the one before it ended
with, and when it is entered and left heading east (`Connector.Smooth`).

Moves to one side are cut short silently: a distance below zero becomes zero.  What a box asks for
before anything is cut is a `Draft` of each connector.  The drafts of a box are listed beside its
tracks (`Box.itemDrafts` beside `Box.itemTracks`, and so on), and a draft that asks for nothing
below zero and leads from east to east is `Draft.Sound`.
-/

namespace SyntaxDiagram

/-! ### Headings -/

/-- A direction of the track. -/
inductive Heading where
  | east
  | south
  | west
  | north
  deriving DecidableEq, Repr

namespace Heading

/-- One unit ahead, with `y` growing downwards. -/
def ahead : Heading → Point
  | .east => (1, 0)
  | .south => (0, 1)
  | .west => (-1, 0)
  | .north => (0, -1)

/-- The heading after a quarter turn to the right. -/
def right : Heading → Heading
  | .east => .south
  | .south => .west
  | .west => .north
  | .north => .east

/-- The heading after a quarter turn to the left. -/
def left : Heading → Heading
  | .east => .north
  | .south => .east
  | .west => .south
  | .north => .west

/-- The heading after a quarter turn, clockwise or not. -/
def turn (isClockwise : Bool) (heading : Heading) : Heading :=
  if isClockwise then heading.right else heading.left

/-- The straight move of some length. -/
def straight : Heading → Int → Move
  | .east, length => .horizontal length
  | .south, length => .vertical length
  | .west, length => .horizontal (-length)
  | .north, length => .vertical (-length)

/-- A straight move goes its length ahead. -/
theorem delta_straight (heading : Heading) (radius length : Int) :
    (heading.straight length).delta radius =
      (length * heading.ahead.1, length * heading.ahead.2) := by
  cases heading <;> simp [straight, Move.delta, ahead]

end Heading

/-! ### Moves and arcs -/

/-- The sweep is a quarter circle that starts with a heading: it turns the way that its flag says,
and goes on by one radius in the direction before the turn and by one in the direction after it. -/
def Sweep.Bends (radius : Int) (heading : Heading) (sweep : Sweep) : Prop :=
  sweep.delta radius =
    (radius * (heading.ahead.1 + (heading.turn sweep.isClockwise).ahead.1),
      radius * (heading.ahead.2 + (heading.turn sweep.isClockwise).ahead.2))

/-- A quarter circle with a radius starts with one heading only. -/
theorem Sweep.Bends.unique {radius : Int} (hr : 0 < radius) {heading heading' : Heading}
    {sweep : Sweep} (h : sweep.Bends radius heading) (h' : sweep.Bends radius heading') :
    heading = heading' := by
  have heq := h.symm.trans h'
  generalize sweep.isClockwise = isClockwise at heq
  -- two headings and the flag are eight displacements, which differ by one or two radii
  cases isClockwise <;> cases heading <;> cases heading' <;>
    simp [Heading.turn, Heading.right, Heading.left, Heading.ahead] at heq ⊢ <;> omega

namespace Move

/-- The move takes the track from one heading to another. -/
inductive Leads (radius : Int) : Heading → Move → Heading → Prop
  | straight (heading : Heading) {length : Int} (nonneg : 0 ≤ length) :
    Leads radius heading (heading.straight length) heading
  | arc {heading : Heading} {sweep : Sweep} (bends : sweep.Bends radius heading) :
    Leads radius heading (.arc sweep) (heading.turn sweep.isClockwise)

/-- An arc with a radius has one heading at its start and one at its end. -/
theorem Leads.unique {radius : Int} (hr : 0 < radius) {sweep : Sweep} {h₁ h₂ k₁ k₂ : Heading}
    (h : Leads radius h₁ (.arc sweep) h₂) (k : Leads radius k₁ (.arc sweep) k₂) :
    h₁ = k₁ ∧ h₂ = k₂ := by
  -- a straight move is no arc
  have hbends {h₁ h₂ : Heading} (h : Leads radius h₁ (.arc sweep) h₂) :
      sweep.Bends radius h₁ ∧ h₂ = h₁.turn sweep.isClockwise := by
    generalize hmove : Move.arc sweep = move at h
    cases h with
    | straight => cases h₁ <;> exact absurd hmove (by simp [Heading.straight])
    | arc bends =>
      obtain rfl := Move.arc.inj hmove
      exact ⟨bends, rfl⟩
  obtain ⟨hh, rfl⟩ := hbends h
  obtain ⟨hk, rfl⟩ := hbends k
  obtain rfl := hh.unique hr hk
  exact ⟨rfl, rfl⟩

/-- A sweep with the flag of a turn and the displacement of one leads through that turn. -/
theorem leads_arc {radius : Int} {heading : Heading} {sweep : Sweep} (isClockwise : Bool)
    (hflag : sweep.isClockwise = isClockwise)
    (hdelta : sweep.delta radius =
      (radius * (heading.ahead.1 + (heading.turn isClockwise).ahead.1),
        radius * (heading.ahead.2 + (heading.turn isClockwise).ahead.2))) :
    Leads radius heading (.arc sweep) (heading.turn isClockwise) := by
  subst hflag
  exact .arc hdelta

variable (radius : Int)

theorem leads_ne : Leads radius .east (.arc .ne) .south :=
  leads_arc true rfl (by simp [Heading.turn, Heading.right, Heading.ahead])

theorem leads_es : Leads radius .south (.arc .es) .west :=
  leads_arc true rfl (by simp [Heading.turn, Heading.right, Heading.ahead])

theorem leads_sw : Leads radius .west (.arc .sw) .north :=
  leads_arc true rfl (by simp [Heading.turn, Heading.right, Heading.ahead])

theorem leads_wn : Leads radius .north (.arc .wn) .east :=
  leads_arc true rfl (by simp [Heading.turn, Heading.right, Heading.ahead])

theorem leads_se : Leads radius .east (.arc .se) .north :=
  leads_arc false rfl (by simp [Heading.turn, Heading.left, Heading.ahead])

theorem leads_ws : Leads radius .south (.arc .ws) .east :=
  leads_arc false rfl (by simp [Heading.turn, Heading.left, Heading.ahead])

/-- Moves one after the other, each with the heading that the one before it ends with. -/
inductive Course : Heading → List Move → Heading → Prop
  | nil (heading : Heading) : Course heading [] heading
  | cons {h₁ h₂ h₃ : Heading} {move : Move} {rest : List Move} (first : Leads radius h₁ move h₂)
    (others : Course h₂ rest h₃) : Course h₁ (move :: rest) h₃

end Move

/-- The connector heads east where it is entered and where it is left, and each of its moves has the
heading that the one before it ends with. -/
def Connector.Smooth (radius : Int) (c : Connector) : Prop :=
  Move.Course radius .east c.moves .east

/-! ### Drafts -/

/-- One move as it is asked for: one along the line that is taken as it is, one to a side that is
cut short below zero, or an arc. -/
inductive Stride where
  | level (distance : Int)
  | straight (heading : Heading) (length : Int)
  | arc (sweep : Sweep)

namespace Stride

/-- The move that a stride comes to. -/
def move : Stride → Move
  | .level distance => .horizontal distance
  | .straight heading length => heading.straight (max 0 length)
  | .arc sweep => .arc sweep

/-- Nothing of the stride is cut: it does not ask for a length below zero. -/
def Unclamped : Stride → Prop
  | .level _ => True
  | .straight _ length => 0 ≤ length
  | .arc _ => True

/-- A straight move that is not cut short keeps the heading. -/
theorem leads_straight {radius length : Int} (h : 0 ≤ length) (heading : Heading) :
    (straight heading length).move.Leads radius heading heading := by
  rw [move, max_eq_right h]
  exact .straight heading h

end Stride

/-- A connector as it is asked for. -/
structure Draft where
  x : Int
  y : Int
  role : Role
  strides : List Stride

namespace Draft

/-- The connector that a draft comes to. -/
def connector (d : Draft) : Connector :=
  ⟨d.x, d.y, d.role, d.strides.map Stride.move⟩

/-- The draft comes to a smooth connector, and nothing of it is cut. -/
structure Sound (radius : Int) (d : Draft) : Prop where
  unclamped : ∀ stride ∈ d.strides, stride.Unclamped
  smooth : d.connector.Smooth radius

variable {radius length width : Int} (x y : Int) (role : Role)

/-- A level stride forwards is sound as a draft. -/
theorem sound_level (h : 0 ≤ length) : Sound radius ⟨x, y, role, [.level length]⟩ where
  unclamped := by simp [Stride.Unclamped]
  smooth := .cons (.straight .east h) (.nil .east)

/-- A stride to the east is sound as a draft. -/
theorem sound_east (h : 0 ≤ length) : Sound radius ⟨x, y, role, [.straight .east length]⟩ where
  unclamped := by simp [Stride.Unclamped, h]
  smooth := .cons (Stride.leads_straight h .east) (.nil .east)

/-- A bent track that rises. -/
theorem sound_rising (h : 0 ≤ length) :
    Sound radius ⟨x, y, role, [.arc .se, .straight .north length, .arc .wn]⟩ where
  unclamped := by simp [Stride.Unclamped, h]
  smooth := .cons (Move.leads_se radius) <| .cons (Stride.leads_straight h .north) <|
    .cons (Move.leads_wn radius) (.nil .east)

/-- A bent track that falls. -/
theorem sound_falling (h : 0 ≤ length) :
    Sound radius ⟨x, y, role, [.arc .ne, .straight .south length, .arc .ws]⟩ where
  unclamped := by simp [Stride.Unclamped, h]
  smooth := .cons (Move.leads_ne radius) <| .cons (Stride.leads_straight h .south) <|
    .cons (Move.leads_ws radius) (.nil .east)

/-- A track that falls, goes back and rises again. -/
theorem sound_around (h : 0 ≤ length) (hw : 0 ≤ width) :
    Sound radius ⟨x, y, role, [.arc .ne, .straight .south length, .arc .es, .straight .west width,
      .arc .sw, .straight .north length, .arc .wn]⟩ where
  unclamped := by simp [Stride.Unclamped, h, hw]
  smooth := .cons (Move.leads_ne radius) <| .cons (Stride.leads_straight h .south) <|
    .cons (Move.leads_es radius) <| .cons (Stride.leads_straight hw .west) <|
    .cons (Move.leads_sw radius) <| .cons (Stride.leads_straight h .north) <|
    .cons (Move.leads_wn radius) (.nil .east)

end Draft

namespace Box

variable {m : Metrics}

/-! ### Drafts of one box -/

/-- What is asked for to fill the gaps on both sides of a box. -/
def gapDrafts (m : Metrics) (role : Role) (x y span own : Int) : List Draft :=
  let (left, right) := m.alignment.gaps span own
  (if left = 0 then [] else [⟨x, y, role, [.level left]⟩]) ++
    if right = 0 then [] else [⟨x + left + own, y, role, [.level right]⟩]

/-- What is asked for in front of each of some items that stand side by side. -/
def joinDrafts (m : Metrics) (role : Role) (x y : Int) : List Int → List Draft
  | [] => []
  | width :: rest =>
    ⟨x, y, role, [.level m.itemGap]⟩ :: joinDrafts m role (x + m.itemGap + width) y rest

/-- What is asked for by a line with items of given widths. -/
def lineDrafts (m : Metrics) (role : Role) (x y span own : Int) : List Int → List Draft
  | [] => if span = 0 then [] else [⟨x, y, role, [.straight .east span]⟩]
  | width :: rest =>
    gapDrafts m role x y span own ++
      joinDrafts m role (x + leftGap m span own + width) y rest

/-- What is asked for to and from the item of a branch. -/
def itemDrafts (m : Metrics) (x y inner offset : Int) (role : Role) : List Draft :=
  let r := m.arcRadius
  let far := x + 2 * r + inner
  if offset < 0 then
    [⟨x, y, role, [.arc .se, .straight .north (-offset - 2 * r), .arc .wn]⟩,
      ⟨far, y + offset, role, [.arc .ne, .straight .south (-offset - 2 * r), .arc .ws]⟩]
  else if offset = 0 then
    [⟨x, y, .line, [.straight .east (2 * r)]⟩, ⟨far, y, .line, [.straight .east (2 * r)]⟩]
  else
    [⟨x, y, role, [.arc .ne, .straight .south (offset - 2 * r), .arc .ws]⟩,
      ⟨far, y + offset, role, [.arc .se, .straight .north (offset - 2 * r), .arc .wn]⟩]

/-- What is asked for by a loop. -/
def loopDrafts (m : Metrics) (x y width offset : Int) : List Draft :=
  let r := m.arcRadius
  [⟨x, y, .line, [.straight .east r]⟩, ⟨x + width - r, y, .line, [.straight .east r]⟩,
    ⟨x + width - r, y, .loop,
      [.arc .ne, .straight .south (offset - 2 * r), .arc .es, .straight .west (width - 2 * r),
        .arc .sw, .straight .north (offset - 2 * r), .arc .wn]⟩]

theorem gapTracks_eq_map (role : Role) (x y span own : Int) :
    gapTracks m role x y span own = (gapDrafts m role x y span own).map Draft.connector := by
  unfold gapTracks gapDrafts
  dsimp only
  split_ifs <;> rfl

theorem joinTracks_eq_map (role : Role) (x y : Int) (widths : List Int) :
    joinTracks m role x y widths = (joinDrafts m role x y widths).map Draft.connector := by
  induction widths generalizing x with
  | nil => rfl
  | cons width rest ih =>
    rw [joinTracks, joinDrafts, List.map_cons, ih]
    rfl

theorem lineTracks_eq_map (role : Role) (x y span own : Int) (widths : List Int) :
    lineTracks m role x y span own widths =
      (lineDrafts m role x y span own widths).map Draft.connector := by
  cases widths with
  | nil =>
    unfold lineTracks lineDrafts
    split_ifs <;> rfl
  | cons width rest =>
    rw [lineTracks, lineDrafts, List.map_append, gapTracks_eq_map, joinTracks_eq_map]

/-- The tracks to and from an item of a branch are those asked for. -/
theorem itemTracks_eq_map (x y inner offset : Int) (role : Role) :
    itemTracks m x y inner offset role =
      (itemDrafts m x y inner offset role).map Draft.connector := by
  unfold itemTracks itemDrafts
  split_ifs <;> rfl

theorem loopTracks_eq_map (x y width offset : Int) :
    loopTracks m x y width offset = (loopDrafts m x y width offset).map Draft.connector := rfl

/-- Nothing of a gap track is cut when the item fits, and it heads east. -/
theorem sound_of_mem_gapDrafts {role : Role} {x y span own : Int} (h : own ≤ span) {d : Draft}
    (hd : d ∈ gapDrafts m role x y span own) (radius : Int) : d.Sound radius := by
  obtain ⟨hleft, hright⟩ := gaps_nonneg m.alignment h
  simp only [gapDrafts, List.mem_append] at hd
  rcases hd with hd | hd <;> split_ifs at hd with hzero
  · exact absurd hd List.not_mem_nil
  · obtain rfl := List.mem_singleton.mp hd
    exact Draft.sound_level _ _ _ hleft
  · exact absurd hd List.not_mem_nil
  · obtain rfl := List.mem_singleton.mp hd
    exact Draft.sound_level _ _ _ hright

/-- Nothing of the track between two items is cut, and it heads east. -/
theorem sound_of_mem_joinDrafts (hgap : 0 ≤ m.itemGap) {role : Role} {x y : Int}
    {widths : List Int} {d : Draft} (hd : d ∈ joinDrafts m role x y widths) (radius : Int) :
    d.Sound radius := by
  induction widths generalizing x with
  | nil => exact absurd hd List.not_mem_nil
  | cons width rest ih =>
    rcases List.mem_cons.mp hd with rfl | hd
    · exact Draft.sound_level _ _ _ hgap
    · exact ih hd

/-- The arcs to and from an item of a branch fit into the height of its offset. -/
theorem sound_of_mem_itemDrafts (hr : 0 ≤ m.arcRadius) {offset : Int}
    (ho : offset = 0 ∨ 2 * m.arcRadius ≤ -offset ∨ 2 * m.arcRadius ≤ offset) {x y inner : Int}
    {role : Role} {d : Draft} (hd : d ∈ itemDrafts m x y inner offset role) (radius : Int) :
    d.Sound radius := by
  unfold itemDrafts at hd
  dsimp only at hd
  split_ifs at hd with hneg hzero <;>
    simp only [List.mem_cons, List.not_mem_nil, or_false] at hd <;> rcases hd with rfl | rfl
  · exact Draft.sound_rising _ _ _ (by omega)
  · exact Draft.sound_falling _ _ _ (by omega)
  · exact Draft.sound_east _ _ _ (by omega)
  · exact Draft.sound_east _ _ _ (by omega)
  · exact Draft.sound_falling _ _ _ (by omega)
  · exact Draft.sound_rising _ _ _ (by omega)

/-- The arcs of the track back fit into the height and the width of a loop. -/
theorem sound_of_mem_loopDrafts (hr : 0 ≤ m.arcRadius) {x y width offset : Int}
    (hw : 2 * m.arcRadius ≤ width) (ho : 2 * m.arcRadius ≤ offset) {d : Draft}
    (hd : d ∈ loopDrafts m x y width offset) (radius : Int) : d.Sound radius := by
  simp only [loopDrafts, List.mem_cons, List.not_mem_nil, or_false] at hd
  rcases hd with rfl | rfl | rfl
  · exact Draft.sound_east _ _ _ hr
  · exact Draft.sound_east _ _ _ hr
  · exact Draft.sound_around _ _ _ (by omega) (by omega)

end Box

end SyntaxDiagram
