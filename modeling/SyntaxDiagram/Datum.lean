import SyntaxDiagram.Number
import SyntaxDiagram.Text.Quoted

/-!
# Plain data

A plain value that may stand where a grammar expects an element or an entry: nothing, a truth value,
a number, a text, or a list or record of such values. Most of them are only quoted in a complaint.
-/

namespace SyntaxDiagram

/-- A plain value. -/
inductive Datum where
  | null
  | bool (value : Bool)
  | number (value : Number)
  | text (value : String)
  | list (items : List Datum)
  | record (fields : List (String × Datum))
  deriving Repr

namespace Datum

/-- The text of a truth value. -/
def debugBool (value : Bool) : String :=
  if value then "True" else "False"

mutual

/-- The exact text of a value, as complaints quote it. -/
def debug : Datum → String
  | .null => "None"
  | .bool value => debugBool value
  | .number value => value.debug
  | .text value => quoted value
  | .list items => "[" ++ ", ".intercalate (debugList items) ++ "]"
  | .record fields => "\x7b" ++ ", ".intercalate (debugFields fields) ++ "\x7d"

/-- The texts of the items of a list. -/
def debugList : List Datum → List String
  | [] => []
  | item :: rest => debug item :: debugList rest

/-- The texts of the fields of a record. -/
def debugFields : List (String × Datum) → List String
  | [] => []
  | (name, value) :: rest => (quoted name ++ ": " ++ debug value) :: debugFields rest

end

theorem debugList_eq_map (items : List Datum) : debugList items = items.map debug := by
  induction items with
  | nil => rfl
  | cons item rest ih => rw [debugList, ih, List.map_cons]

/-- A truth value or a number as a number; a truth value counts as zero or one. -/
def toNumber? : Datum → Option Number
  | .bool value => some (.int (if value then 1 else 0))
  | .number value => some value
  | _ => none

/-- Whether a value counts as true: it is neither nothing, false, zero nor empty. -/
def countsAsTrue : Datum → Bool
  | .null => false
  | .bool value => value
  | .number value => !value.eq (.int 0)
  | .text value => !value.isEmpty
  | .list items => !items.isEmpty
  | .record fields => !fields.isEmpty

mutual

/-- Equality of values: truth values and numbers compare by their numeric value, lists item by
item, records by what each name is bound to. -/
def eq : Datum → Datum → Bool
  | .null, .null => true
  | .text s, .text t => s == t
  | .list xs, .list ys => eqList xs ys
  | .record fs, .record gs => fs.length == gs.length && eqFields fs gs
  | a, b =>
    match a.toNumber?, b.toNumber? with
    | some m, some n => m.eq n
    | _, _ => false

/-- Equality of lists item by item. -/
def eqList : List Datum → List Datum → Bool
  | [], [] => true
  | x :: xs, y :: ys => eq x y && eqList xs ys
  | _, _ => false

/-- Whether every field of the first record has an equal one in the second. -/
def eqFields : List (String × Datum) → List (String × Datum) → Bool
  | [], _ => true
  | (name, value) :: rest, fields =>
    (match fields.lookup name with
      | some other => eq value other
      | none => false) && eqFields rest fields

end

example : (Datum.list [.text "a", .null, .bool true]).debug = "['a', None, True]" := by
  decide +kernel

end Datum

end SyntaxDiagram
