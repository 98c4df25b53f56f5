import SyntaxDiagram.Connector
import SyntaxDiagram.Element.Basic

/-!
# Boxes

A laid out diagram is a tree of boxes on a horizontal track. A box knows how far it reaches along,
above and below the track, and carries a value that says where it is: nothing before it is placed,
a `Placement` afterwards.
-/

namespace SyntaxDiagram

/-- What a label box shows: the text of a literal, or the identifier of a reference with the kind of
symbol that it names. -/
inductive LabelKind where
  | terminal
  | rule (target : Option SymbolKind)
  deriving DecidableEq, Repr

/-- The name of the class of label boxes. -/
def LabelKind.className : LabelKind → String
  | .terminal => "TerminalBox"
  | .rule _ => "RuleBox"

/-- The sizes of a box: the distance between its entry and its exit, and how far it reaches above
and below the line between them. `place` says where the box is. -/
structure Frame (α : Type) where
  width : Int
  up : Int
  down : Int
  note : Option String
  place : α
  deriving DecidableEq, Repr

/-- The frame of the same sizes with another place. -/
def Frame.moveTo {α β : Type} (frame : Frame α) (place : β) : Frame β :=
  ⟨frame.width, frame.up, frame.down, frame.note, place⟩

/-- How far a box reaches above and below its line, together. -/
def Frame.height {α : Type} (frame : Frame α) : Int :=
  frame.up + frame.down

/-- A box. The items of a line stand side by side, with nothing else than track on an empty one. The
items of a branch are stacked, each at an offset from the main line; the offset of the main item is
zero. Below the item of a loop, at an offset, a track leads back from its exit to its entry. -/
inductive Box (α : Type) where
  | label (frame : Frame α) (kind : LabelKind) (text : String)
  | line (frame : Frame α) (role : Role) (items : List (Box α))
  | branch (frame : Frame α) (mainIndex : Nat) (separators offsets : List Int)
      (items : List (Box α))
  | loop (frame : Frame α) (offset : Int) (item : Box α)
  deriving Repr

namespace Box

variable {α β : Type}

/-! ### Parts -/

/-- The frame of a box. -/
def frame : Box α → Frame α
  | .label frame .. => frame
  | .line frame .. => frame
  | .branch frame .. => frame
  | .loop frame .. => frame

/-- The distance between the entry and the exit of a box. -/
def width (box : Box α) : Int := box.frame.width

/-- How far a box reaches above its line. -/
def up (box : Box α) : Int := box.frame.up

/-- How far a box reaches below its line. -/
def down (box : Box α) : Int := box.frame.down

/-- The boxes directly inside a box. -/
def children : Box α → List (Box α)
  | .label .. => []
  | .line _ _ items => items
  | .branch _ _ _ _ items => items
  | .loop _ _ item => [item]

/-- A line without items, which is nothing but track. -/
def isBareTrack : Box α → Bool
  | .line _ _ items => items.isEmpty
  | _ => false

/-- The role of the track to and from a box that is an item of a branch: that of a line, unless it
is plain. -/
def branchRole : Box α → Role
  | .line _ role _ => if role = .line then .branch else role
  | _ => .branch

/-- The name of the class of a box. -/
def className : Box α → String
  | .label _ kind _ => kind.className
  | .line .. => "Line"
  | .branch .. => "Branch"
  | .loop .. => "Loop"

/-- The word for the kind of a box. -/
def kindName : Box α → String
  | .label _ .terminal _ => "terminal"
  | .label _ (.rule _) _ => "rule"
  | .line .. => "line"
  | .branch .. => "branch"
  | .loop .. => "loop"

/-! ### Traversal -/

mutual

/-- All boxes of a tree, each before those inside it, in order. -/
def boxes : Box α → List (Box α)
  | .label frame kind text => [.label frame kind text]
  | .line frame role items => .line frame role items :: boxesList items
  | .branch frame mainIndex separators offsets items =>
    .branch frame mainIndex separators offsets items :: boxesList items
  | .loop frame offset item => .loop frame offset item :: boxes item

/-- All boxes of a list of trees. -/
def boxesList : List (Box α) → List (Box α)
  | [] => []
  | box :: rest => boxes box ++ boxesList rest

end

theorem boxesList_eq_flatMap (items : List (Box α)) : boxesList items = items.flatMap boxes := by
  induction items with
  | nil => rfl
  | cons box rest ih => rw [boxesList, ih, List.flatMap_cons]

mutual

/-- The tree with every place changed. -/
def map (f : α → β) : Box α → Box β
  | .label frame kind text => .label (frame.moveTo (f frame.place)) kind text
  | .line frame role items => .line (frame.moveTo (f frame.place)) role (mapList f items)
  | .branch frame mainIndex separators offsets items =>
    .branch (frame.moveTo (f frame.place)) mainIndex separators offsets (mapList f items)
  | .loop frame offset item => .loop (frame.moveTo (f frame.place)) offset (map f item)

/-- The trees with every place changed. -/
def mapList (f : α → β) : List (Box α) → List (Box β)
  | [] => []
  | box :: rest => map f box :: mapList f rest

end

theorem mapList_eq_map (f : α → β) (items : List (Box α)) :
    mapList f items = items.map (map f) := by
  induction items with
  | nil => rfl
  | cons box rest ih => rw [mapList, ih, List.map_cons]

@[simp]
theorem width_map (f : α → β) (box : Box α) : (box.map f).width = box.width := by
  cases box <;> simp only [map, width, frame, Frame.moveTo]

/-! ### Paths -/

/-- A box with its child at a position replaced. -/
def setChild (box : Box α) (index : Nat) (child : Box α) : Box α :=
  match box with
  | .label frame kind text => .label frame kind text
  | .line frame role items => .line frame role (items.set index child)
  | .branch frame mainIndex separators offsets items =>
    .branch frame mainIndex separators offsets (items.set index child)
  | .loop frame offset item => .loop frame offset (if index = 0 then child else item)

/-- The box reached by a path of child positions. -/
def descend? : List Nat → Box α → Option (Box α)
  | [], box => some box
  | index :: path, box => (box.children[index]?).bind (descend? path)

/-- The tree with the box reached by a path changed. -/
def modifyAt? (change : Box α → Box α) : List Nat → Box α → Option (Box α)
  | [], box => some (change box)
  | index :: path, box => do
    let child ← box.children[index]?
    let child ← modifyAt? change path child
    return box.setChild index child

/-! ### Text -/

mutual

/-- The exact text of a box. -/
def debug : Box α → String
  | .label _ kind text => kind.className ++ "(" ++ quoted text ++ ")"
  | .line _ _ items => "Line(" ++ ", ".intercalate (debugList items) ++ ")"
  | .branch _ mainIndex _ _ items =>
    "Branch(" ++ ", ".intercalate (toString mainIndex :: debugList items) ++ ")"
  | .loop _ _ item => "Loop(" ++ debug item ++ ")"

/-- The exact texts of some boxes. -/
def debugList : List (Box α) → List String
  | [] => []
  | box :: rest => debug box :: debugList rest

end

theorem debugList_eq_map (items : List (Box α)) : debugList items = items.map debug := by
  induction items with
  | nil => rfl
  | cons box rest ih => rw [debugList, ih, List.map_cons]

end Box

end SyntaxDiagram
