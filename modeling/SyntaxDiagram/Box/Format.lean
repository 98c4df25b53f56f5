import SyntaxDiagram.Box.Place

/-!
# Placing boxes again

A box can be placed over whatever it was before. What changes is written on a `Slate`: the old
connectors are wiped off, the new ones are added one after the other, and the coordinates are set.
`Box.format` works through a tree in this way, of which any part may have been placed before.
-/

namespace SyntaxDiagram

/-- What is known about the place of a box while it is worked on: the coordinates as far as they are
set, and the connectors so far. -/
structure Slate where
  x : Option Int
  y : Option Int
  connectors : List Connector
  deriving DecidableEq, Repr

namespace Slate

/-- What was left of an earlier place. -/
def ofPlace? : Option Placement → Slate
  | none => ⟨none, none, []⟩
  | some place => ⟨some place.x, some place.y, place.connectors⟩

/-- The place of a box of which both coordinates are set. -/
def place? (slate : Slate) : Option Placement := do
  return ⟨← slate.x, ← slate.y, slate.connectors⟩

/-- Without the connectors of before. -/
def wipe (slate : Slate) : Slate :=
  { slate with connectors := [] }

/-- With one more connector. -/
def add (slate : Slate) (connector : Connector) : Slate :=
  { slate with connectors := slate.connectors ++ [connector] }

/-- With more connectors, one after the other. -/
def addAll (slate : Slate) (connectors : List Connector) : Slate :=
  connectors.foldl add slate

/-- With another first coordinate. -/
def setX (slate : Slate) (x : Int) : Slate :=
  { slate with x := some x }

/-- With another second coordinate. -/
def setY (slate : Slate) (y : Int) : Slate :=
  { slate with y := some y }

/-- With the track on both sides of a box in a wider span. -/
def addGaps (m : Metrics) (role : Role) (x y span own : Int) (slate : Slate) : Slate :=
  let (left, right) := m.alignment.gaps span own
  let slate := if left = 0 then slate else slate.add (.horizontal x y role left)
  if right = 0 then slate else slate.add (.horizontal (x + left + own) y role right)

end Slate

namespace Box

mutual

/-- A box placed at a point in a span of a given width, over what it was before. -/
def format (m : Metrics) (x y span : Int) : Box (Option Placement) → Box (Option Placement)
  | .label frame kind text =>
    let slate := (Slate.ofPlace? frame.place).wipe
    let slate := slate.addGaps m .line x y span frame.width
    let slate := (slate.setX (x + leftGap m span frame.width)).setY y
    .label (frame.moveTo slate.place?) kind text
  | .line frame role items =>
    let slate := (Slate.ofPlace? frame.place).wipe.setY y
    if items.isEmpty then
      let slate := slate.setX x
      let slate := if span = 0 then slate else slate.add (.right x y role span)
      .line (frame.moveTo slate.place?) role items
    else
      let slate := slate.addGaps m role x y span frame.width
      let x := x + leftGap m span frame.width
      let slate := slate.setX x
      let (slate, items) := formatRow m role true x y slate items
      .line (frame.moveTo slate.place?) role items
  | .branch frame mainIndex separators offsets items =>
    let slate := (Slate.ofPlace? frame.place).wipe
    let slate := slate.addGaps m .line x y span frame.width
    let x := x + leftGap m span frame.width
    let slate := (slate.setX x).setY y
    let inner := frame.width - 4 * m.arcRadius
    let (slate, items) := formatStack m x y inner offsets slate items
    .branch (frame.moveTo slate.place?) mainIndex separators offsets items
  | .loop frame offset item =>
    let slate := (Slate.ofPlace? frame.place).wipe
    let slate := slate.addGaps m .line x y span frame.width
    let x := x + leftGap m span frame.width
    let slate := (slate.setX x).setY y
    let item := format m (x + m.arcRadius) y (frame.width - 2 * m.arcRadius) item
    let slate := slate.addAll (loopTracks m x y frame.width offset)
    .loop (frame.moveTo slate.place?) offset item

/-- Boxes placed side by side, each in a span of its own width, with the track between them added to
the slate of the line that they are on. There is no track in front of the first one. -/
def formatRow (m : Metrics) (role : Role) (isFirst : Bool) (x y : Int) (slate : Slate) :
    List (Box (Option Placement)) → Slate × List (Box (Option Placement))
  | [] => (slate, [])
  | item :: rest =>
    let (slate, x) := if isFirst then (slate, x) else
      (slate.add (.horizontal x y role m.itemGap), x + m.itemGap)
    let placed := format m x y item.width item
    let (slate, rest) := formatRow m role false (x + item.width) y slate rest
    (slate, placed :: rest)

/-- Boxes placed one above the other at their offsets, with the track to and from each of them added
to the slate of their branch. -/
def formatStack (m : Metrics) (x y inner : Int) (offsets : List Int) (slate : Slate) :
    List (Box (Option Placement)) → Slate × List (Box (Option Placement))
  | [] => (slate, [])
  | item :: rest =>
    -- a branch has an offset for each of its items
    let tracks := offsets.head?.elim [] fun offset => itemTracks m x y inner offset item.branchRole
    let placed := format m (x + 2 * m.arcRadius) (y + offsets.headD 0) inner item
    let (slate, rest) := formatStack m x y inner offsets.tail (slate.addAll tracks) rest
    (slate, placed :: rest)

end

end Box

end SyntaxDiagram
