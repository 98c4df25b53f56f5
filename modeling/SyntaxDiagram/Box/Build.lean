import SyntaxDiagram.Box.Basic
import SyntaxDiagram.Measure

/-!
# Sizes of boxes

Boxes are built from the inside out, and their sizes follow from those of their items. The items of
a branch are stacked outwards from the main one by `fan`, close together but with room for the arcs
that lead to them. Items may be placed already; the new box around them is not.
-/

namespace SyntaxDiagram

/-! ### Stacking -/

/-- The separators and distances of items stacked away from the main line, nearest first. Each item
is given by how far it reaches towards the main line and away from it; `away` and `distance` belong
to the item before, and `bend` is the height that the arcs to the next item need. -/
def fan (m : Metrics) (bend away distance : Int) : List (Int × Int) → List (Int × Int)
  | [] => []
  | (towards, away') :: rest =>
    let separator := m.separation + max 0 (bend - (away + m.separation + towards))
    let distance' := distance + (away + separator + towards)
    (separator, distance') :: fan m m.arcRadius away' distance' rest

theorem length_fan (m : Metrics) (bend away distance : Int) (reaches : List (Int × Int)) :
    (fan m bend away distance reaches).length = reaches.length := by
  induction reaches generalizing bend away distance with
  | nil => rfl
  | cons reach rest ih => simp only [fan, List.length_cons, ih]

/-- The greatest of some integers. -/
def greatest (first : Int) (rest : List Int) : Int :=
  rest.foldl max first

namespace Box

variable {α : Type} [Inhabited α]

/-- A note of the sizes of a box, for the metrics that ask for one. -/
def sizeNote (m : Metrics) (className : String) (width up down : Int) : Option String :=
  if m.annotates then
    some (className ++ " w:" ++ toString width ++ " u:" ++ toString up ++ " d:" ++ toString down)
  else none

/-- The frame of a new box. It has the place that stands for none. -/
def newFrame (m : Metrics) (className : String) (width up down : Int) : Frame α :=
  ⟨width, up, down, sizeNote m className width up down, default⟩

/-! ### Building -/

/-- A label box for a text of a given width. -/
def ofLabel (m : Metrics) (kind : LabelKind) (text : String) (textWidth : Int) : Box α :=
  let width := textWidth + m.labelPadding
  .label (newFrame m kind.className width m.labelHalfHeight m.labelHalfHeight) kind text

/-- A label box for a text, measured. -/
def measured (m : Metrics) (measure : Measure) (kind : LabelKind) (text : String) :
    Except Fault (Box α) := do
  let textWidth ← measure.labelWidth text
  return ofLabel m kind text textWidth

/-- A line of some items. Track joins each item to the next. -/
def ofItems (m : Metrics) (role : Role) (items : List (Box α)) : Box α :=
  match items with
  | [] => .line (newFrame m "Line" 0 0 0) role []
  | first :: rest =>
    let width := (items.map Box.width).foldr (· + ·) 0 + m.itemGap * rest.length
    let up := greatest first.up (rest.map Box.up)
    let down := greatest first.down (rest.map Box.down)
    .line (newFrame m "Line" width up down) role items

/-- A branch with a main item, some items above it and some below it. -/
def stacked (m : Metrics) (above : List (Box α)) (main : Box α) (below : List (Box α)) :
    Box α :=
  let items := above ++ main :: below
  let upper :=
    fan m (2 * m.arcRadius) main.up 0 (above.reverse.map fun item => (item.down, item.up))
  let lower := fan m (2 * m.arcRadius) main.down 0 (below.map fun item => (item.up, item.down))
  let separators := upper.reverse.map (·.1) ++ lower.map (·.1)
  let offsets := upper.reverse.map (-·.2) ++ 0 :: lower.map (·.2)
  let width := 4 * m.arcRadius + greatest main.width ((above ++ below).map Box.width)
  let up := (above.head?.getD main).up - offsets.headD 0
  let down := offsets.getLastD 0 + (below.getLast?.getD main).down
  .branch (newFrame m "Branch" width up down) above.length separators offsets items

/-- A branch of some items, of which one is the main item. -/
def ofBranches (m : Metrics) (mainIndex : Int) (items : List (Box α)) :
    Except Fault (Box α) :=
  if mainIndex < 0 then .error .noMainItem
  else
    match items.drop mainIndex.toNat with
    | [] => .error .noMainItem
    | main :: below => .ok (stacked m (items.take mainIndex.toNat) main below)

/-- A loop around an item. -/
def repeated (m : Metrics) (item : Box α) : Box α :=
  let offset := max (2 * m.arcRadius) (item.down + m.separation)
  .loop (newFrame m "Loop" (item.width + 2 * m.arcRadius) item.up offset) offset item

end Box

end SyntaxDiagram
