import SyntaxDiagram.Box.Basic
import SyntaxDiagram.Metrics

/-!
# Placing boxes

`Box.place` puts a box at a point, in a span of track that may be wider than the box, and draws the
connectors that belong to it. The sizes of a box never change, and where it was before does not
matter.
-/

namespace SyntaxDiagram

/-- Where a box is: the point at which it is entered, and the connectors drawn for it. -/
structure Placement where
  x : Int
  y : Int
  connectors : List Connector
  deriving DecidableEq, Repr

namespace Box

variable {α : Type}

/-! ### Connectors of one box -/

/-- The gap to the left of a box of width `own` in a span of a given width. -/
def leftGap (m : Metrics) (span own : Int) : Int :=
  (m.alignment.gaps span own).1

/-- The track that fills the gaps on both sides of a box in a wider span. -/
def gapTracks (m : Metrics) (role : Role) (x y span own : Int) : List Connector :=
  let (left, right) := m.alignment.gaps span own
  (if left = 0 then [] else [.horizontal x y role left]) ++
    if right = 0 then [] else [.horizontal (x + left + own) y role right]

/-- The track in front of each of some items that stand side by side, given their widths. -/
def joinTracks (m : Metrics) (role : Role) (x y : Int) : List Int → List Connector
  | [] => []
  | width :: rest =>
    .horizontal x y role m.itemGap :: joinTracks m role (x + m.itemGap + width) y rest

/-- The connectors of a line with items of given widths. Without items there is nothing but track
from one end of the span to the other. -/
def lineTracks (m : Metrics) (role : Role) (x y span own : Int) : List Int → List Connector
  | [] => if span = 0 then [] else [.right x y role span]
  | width :: rest =>
    gapTracks m role x y span own ++
      joinTracks m role (x + leftGap m span own + width) y rest

/-- The connectors to and from the item of a branch at an offset: straight ones for the main line,
bent ones above and below it. `inner` is the width of the span that the items share. -/
def itemTracks (m : Metrics) (x y inner offset : Int) (role : Role) : List Connector :=
  let r := m.arcRadius
  let far := x + 2 * r + inner
  if offset < 0 then
    [⟨x, y, role, [.arc .se, .up (-offset - 2 * r), .arc .wn]⟩,
      ⟨far, y + offset, role, [.arc .ne, .down (-offset - 2 * r), .arc .ws]⟩]
  else if offset = 0 then
    [.right x y .line (2 * r), .right far y .line (2 * r)]
  else
    [⟨x, y, role, [.arc .ne, .down (offset - 2 * r), .arc .ws]⟩,
      ⟨far, y + offset, role, [.arc .se, .up (offset - 2 * r), .arc .wn]⟩]

/-- The connectors of a loop of a given width: to the item, from the item, and back below it. -/
def loopTracks (m : Metrics) (x y width offset : Int) : List Connector :=
  let r := m.arcRadius
  [.right x y .line r, .right (x + width - r) y .line r,
    ⟨x + width - r, y, .loop,
      [.arc .ne, .down (offset - 2 * r), .arc .es, .left (width - 2 * r),
        .arc .sw, .up (offset - 2 * r), .arc .wn]⟩]

/-! ### Placing -/

mutual

/-- A box placed at a point, in a span of a given width. -/
def place (m : Metrics) (x y span : Int) : Box α → Box Placement
  | .label frame kind text =>
    let left := leftGap m span frame.width
    .label (frame.moveTo ⟨x + left, y, gapTracks m .line x y span frame.width⟩) kind text
  | .line frame role items =>
    let left := if items.isEmpty then 0 else leftGap m span frame.width
    let tracks := lineTracks m role x y span frame.width (items.map width)
    .line (frame.moveTo ⟨x + left, y, tracks⟩) role (placeRow m (x + left) y items)
  | .branch frame mainIndex separators offsets items =>
    let x' := x + leftGap m span frame.width
    let inner := frame.width - 4 * m.arcRadius
    let tracks := gapTracks m .line x y span frame.width ++
      (offsets.zip (items.map branchRole)).flatMap fun (offset, role) =>
        itemTracks m x' y inner offset role
    .branch (frame.moveTo ⟨x', y, tracks⟩) mainIndex separators offsets
      (placeStack m (x' + 2 * m.arcRadius) y inner offsets items)
  | .loop frame offset item =>
    let x' := x + leftGap m span frame.width
    let tracks := gapTracks m .line x y span frame.width ++ loopTracks m x' y frame.width offset
    .loop (frame.moveTo ⟨x', y, tracks⟩) offset
      (place m (x' + m.arcRadius) y (frame.width - 2 * m.arcRadius) item)

/-- Boxes placed side by side, each in a span of its own width. -/
def placeRow (m : Metrics) (x y : Int) : List (Box α) → List (Box Placement)
  | [] => []
  | item :: rest =>
    place m x y item.width item :: placeRow m (x + item.width + m.itemGap) y rest

/-- Boxes placed one above the other at their offsets, all in spans of one width. -/
def placeStack (m : Metrics) (x y span : Int) (offsets : List Int) :
    List (Box α) → List (Box Placement)
  | [] => []
  | item :: rest =>
    place m x (y + offsets.headD 0) span item :: placeStack m x y span offsets.tail rest

end

/-! ### What placing keeps -/

@[simp]
theorem width_place (m : Metrics) (x y span : Int) (box : Box α) :
    (box.place m x y span).width = box.width := by
  cases box <;> simp only [place, width, frame, Frame.moveTo]

@[simp]
theorem up_place (m : Metrics) (x y span : Int) (box : Box α) :
    (box.place m x y span).up = box.up := by
  cases box <;> simp only [place, up, frame, Frame.moveTo]

@[simp]
theorem down_place (m : Metrics) (x y span : Int) (box : Box α) :
    (box.place m x y span).down = box.down := by
  cases box <;> simp only [place, down, frame, Frame.moveTo]

/-! ### Placed boxes -/

/-- Where a placed box is entered. -/
def entryPoint (box : Box Placement) : Point :=
  (box.frame.place.x, box.frame.place.y)

/-- Where a placed box is left. -/
def exitPoint (box : Box Placement) : Point :=
  (box.frame.place.x + box.width, box.frame.place.y)

/-- The connectors of all boxes of a placed tree. -/
def connectors (box : Box Placement) : List Connector :=
  box.boxes.flatMap (·.frame.place.connectors)

end Box

end SyntaxDiagram
