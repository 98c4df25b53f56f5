import SyntaxDiagram.Text.Quoted

/-!
# Connectors

A connector is a stroke of track: moves from a starting point, straight ones and quarter circles.
All arcs of a drawing share one radius, so an arc is given by its sweep alone.
-/

namespace SyntaxDiagram

/-- A point of a drawing, with `y` growing downwards. -/
abbrev Point := Int × Int

/-! ### Roles -/

/-- What a connector is for. -/
structure Role where
  name : String
  deriving DecidableEq, Repr

namespace Role

/-- Plain track. -/
def line : Role := ⟨"line"⟩

/-- Track to and from an item of a branch. -/
def branch : Role := ⟨"branch"⟩

/-- Track back from the exit of an item to its entry. -/
def loop : Role := ⟨"loop"⟩

/-- Track past an item. -/
def bypass : Role := ⟨"bypass"⟩

end Role

/-! ### Moves -/

/-- The sweep of a quarter circle, by the letters of two compass directions. Letters without a
meaning are allowed, and so are more than two. -/
structure Sweep where
  first : Char
  second : Char
  rest : List Char
  deriving DecidableEq, Repr

namespace Sweep

/-- The sweep with a name of at least two letters. -/
def ofName? (name : String) : Option Sweep :=
  match name.toList with
  | first :: second :: rest => some ⟨first, second, rest⟩
  | _ => none

/-- The name of a sweep. -/
def name (sweep : Sweep) : String :=
  String.ofList (sweep.first :: sweep.second :: sweep.rest)

/-- From north to east. -/
def ne : Sweep := ⟨'n', 'e', []⟩

/-- From east to south. -/
def es : Sweep := ⟨'e', 's', []⟩

/-- From south to west. -/
def sw : Sweep := ⟨'s', 'w', []⟩

/-- From west to north. -/
def wn : Sweep := ⟨'w', 'n', []⟩

/-- From south to east. -/
def se : Sweep := ⟨'s', 'e', []⟩

/-- From west to south. -/
def ws : Sweep := ⟨'w', 's', []⟩

/-- Whether an arc turns clockwise. -/
def isClockwise (sweep : Sweep) : Bool :=
  [ne, es, sw, wn].contains sweep

/-- Where an arc of a given radius ends, seen from where it starts. -/
def delta (radius : Int) (sweep : Sweep) : Point :=
  (if sweep.first = 'e' ∨ sweep.second = 'w' then -radius else radius,
    if sweep.first = 's' ∨ sweep.second = 'n' then -radius else radius)

end Sweep

/-- One move along the track. -/
inductive Move where
  | horizontal (distance : Int)
  | vertical (distance : Int)
  | arc (sweep : Sweep)
  deriving DecidableEq, Repr

namespace Move

/-- To the right, never to the left. -/
def right (distance : Int) : Move := .horizontal (max 0 distance)

/-- To the left, never to the right. -/
def left (distance : Int) : Move := .horizontal (-max 0 distance)

/-- Downwards, never upwards. -/
def down (distance : Int) : Move := .vertical (max 0 distance)

/-- Upwards, never downwards. -/
def up (distance : Int) : Move := .vertical (-max 0 distance)

/-- Where a move ends, seen from where it starts. -/
def delta (radius : Int) : Move → Point
  | .horizontal distance => (distance, 0)
  | .vertical distance => (0, distance)
  | .arc sweep => sweep.delta radius

/-- The point at which a move from a point ends. -/
def apply (radius : Int) (point : Point) (move : Move) : Point :=
  (point.1 + (move.delta radius).1, point.2 + (move.delta radius).2)

/-- The exact text of a move. -/
def debug : Move → String
  | .horizontal distance => "('h', " ++ toString distance ++ ")"
  | .vertical distance => "('v', " ++ toString distance ++ ")"
  | .arc sweep => "('arc', " ++ quoted sweep.name ++ ")"

/-- The path command of a move, with arcs of a given radius. -/
def pathData (radius : Int) : Move → String
  | .horizontal distance => "h" ++ toString distance
  | .vertical distance => "v" ++ toString distance
  | .arc sweep =>
    let (dx, dy) := sweep.delta radius
    "a" ++ toString radius ++ " " ++ toString radius ++ " 0 0 " ++
      (if sweep.isClockwise then "1" else "0") ++ " " ++ toString dx ++ " " ++ toString dy

/-- Whether a move is horizontal. -/
def isHorizontal : Move → Bool
  | .horizontal _ => true
  | _ => false

end Move

/-! ### Connectors -/

/-- A stroke of track. -/
structure Connector where
  x : Int
  y : Int
  role : Role
  moves : List Move
  deriving DecidableEq, Repr

namespace Connector

/-- Where a connector starts. -/
def start (connector : Connector) : Point :=
  (connector.x, connector.y)

/-- Where a connector ends, with arcs of a given radius. -/
def finish (radius : Int) (connector : Connector) : Point :=
  connector.moves.foldl (Move.apply radius) connector.start

/-- The connector with one more move. -/
def push (connector : Connector) (step : Move) : Connector :=
  { connector with moves := connector.moves ++ [step] }

/-- A connector of one horizontal move. -/
def horizontal (x y : Int) (role : Role) (distance : Int) : Connector :=
  ⟨x, y, role, [.horizontal distance]⟩

/-- A connector of one move to the right. -/
def right (x y : Int) (role : Role) (distance : Int) : Connector :=
  ⟨x, y, role, [.right distance]⟩

/-- A connector with one more move ends where that move leads from its end before. -/
theorem finish_push (radius : Int) (connector : Connector) (step : Move) :
    (connector.push step).finish radius = Move.apply radius (connector.finish radius) step := by
  simp [finish, push, start]

/-- The exact text of a connector. -/
def debug (connector : Connector) : String :=
  "Connector(" ++ toString connector.x ++ ", " ++ toString connector.y ++ ", role=" ++
    quoted connector.role.name ++ ", moves=[" ++
    ", ".intercalate (connector.moves.map Move.debug) ++ "])"

/-! ### Path data -/

/-- The path data of a connector. A stroke that ends horizontally is half a unit longer, so that it
joins up with the next one. -/
def pathData (radius : Int) (connector : Connector) : String :=
  "M" ++ toString connector.x ++ " " ++ toString connector.y ++
    String.join (connector.moves.map (Move.pathData radius)) ++
    (if connector.moves.getLast?.any Move.isHorizontal then "h.5" else "")

example : (Connector.mk 0 0 .line [.horizontal 3, .arc .ne, .vertical (-2)]).pathData 3 =
    "M0 0h3a3 3 0 0 1 3 3v-2" := by
  decide +kernel

end Connector

end SyntaxDiagram
