import SyntaxDiagram.Datum
import SyntaxDiagram.Element.Printing

/-!
# Entries

An entry is a named production of a grammar, a rule or a terminal, with its alternatives. An
alternative is a list of elements; the empty list is the empty word. Two entries of one kind are
the same when they have the same identifier.
-/

namespace SyntaxDiagram

/-- The kind of an entry. A fragment is a terminal without a diagram of its own. -/
inductive EntryKind where
  | rule
  | terminal (isFragment : Bool)
  deriving DecidableEq, Repr

namespace EntryKind

/-- Whether entries of this kind are rules. -/
def isRule : EntryKind → Bool
  | .rule => true
  | .terminal _ => false

/-- Whether entries of this kind are terminals without a diagram. -/
def isFragment : EntryKind → Bool
  | .rule => false
  | .terminal isFragment => isFragment

/-- The kind a reference to such an entry has. -/
def symbolKind : EntryKind → SymbolKind
  | .rule => .rule
  | .terminal _ => .terminal

/-- The name of the class of entries. -/
def className : EntryKind → String
  | .rule => "Rule"
  | .terminal _ => "Terminal"

theorem isRule_iff {kind : EntryKind} : kind.isRule = true ↔ kind = .rule := by
  cases kind <;> simp [isRule]

theorem isRule_eq_false_iff {kind : EntryKind} : kind.isRule = false ↔ kind ≠ .rule := by
  cases kind <;> simp [isRule]

end EntryKind

/-- A production of a grammar. -/
structure Entry where
  kind : EntryKind
  identifier : String
  documentation : String
  alternatives : List (List Element)
  deriving Repr

namespace Entry

/-- The elements of an entry at any depth, from left to right, each before those below it. -/
def walk (entry : Entry) : List Element :=
  entry.alternatives.flatMap Element.walkList

/-- The references in an entry, from left to right. -/
def references (entry : Entry) : List (String × Option SymbolKind) :=
  entry.walk.filterMap Element.reference?

/-- The production in grammar notation, with an explicit word on whether it is a fragment. -/
def prettyAs (entry : Entry) (isFragment : Bool) : String :=
  let alternatives := entry.alternatives.map fun alternative =>
    " ".intercalate (alternative.map Element.pretty)
  entry.identifier ++ (if isFragment then " (fragment)" else "") ++ " -> " ++
    " | ".intercalate alternatives ++
    (if entry.documentation.isEmpty then "" else "   // " ++ entry.documentation)

/-- The production in grammar notation. -/
def pretty (entry : Entry) : String :=
  entry.prettyAs entry.kind.isFragment

/-- The exact text of an entry. -/
def debug (entry : Entry) : String :=
  let alternatives := "[" ++ ", ".intercalate (entry.alternatives.map debugAlternative) ++ "]"
  match entry.kind with
  | .rule => "Rule(" ++ quoted entry.identifier ++ ", " ++ alternatives ++ ")"
  | .terminal isFragment =>
    "Terminal(" ++ quoted entry.identifier ++ ", " ++ alternatives ++ ", isFragment=" ++
      Datum.debugBool isFragment ++ ")"

/-- Whether two entries are the same one: of the same class and with the same identifier. -/
def same (a b : Entry) : Bool :=
  a.kind.isRule == b.kind.isRule && a.identifier == b.identifier

end Entry

/-- What is listed where an entry is expected: an entry or some plain value. -/
inductive Listing where
  | entry (value : Entry)
  | datum (value : Datum)
  deriving Repr

/-- The exact text of a listed value. -/
def Listing.debug : Listing → String
  | .entry value => value.debug
  | .datum value => value.debug

end SyntaxDiagram
