import SyntaxDiagram.GrammarError

/-!
# Faults

A fault ends a request. Most are errors of a grammar; the others are misuse of the library, numbers
too large for a double, and whatever a measure or a renderer supplied by a caller raises.
-/

namespace SyntaxDiagram

/-- Why a request has no answer. -/
inductive Fault where
  /-- The grammar is wrong, or the request does not suit it. -/
  | grammar (error : GrammarError)
  /-- A measure or a renderer supplied by a caller gave up with this text. -/
  | raised (text : String)
  /-- A measure or a renderer supplied by a caller failed in its own way, with an error of a class
  of this name. -/
  | other (className text : String)
  /-- A number is too large. -/
  | overflow (cause : Overflow)
  /-- The main item of a branch is none of its items. -/
  | noMainItem
  /-- A point of a box was asked for before the box was placed. -/
  | unplaced
  /-- An arc was named by fewer than two letters. -/
  | shortSweep
  /-- Two foreign elements were compared, or one was looked up. -/
  | incomparable
  /-- A list was looked up. -/
  | listAsKey
  /-- An attribute that an object has already was assigned. -/
  | immutable (className : String)
  /-- A computed attribute was assigned. -/
  | computedAttribute (className name : String)
  /-- A batch was to run on no workers. -/
  | noWorkers
  deriving Repr

namespace Fault

/-- A grammar error, from its cause alone. -/
def ofCause (cause : Cause) : Fault :=
  .grammar (.of cause)

/-- The name of the class of a fault. -/
def className : Fault → String
  | .grammar error => error.cause.errorClass.name
  | .raised _ => "RuntimeError"
  | .other className _ => className
  | .overflow _ => "OverflowError"
  | .noMainItem | .unplaced => "AssertionError"
  | .shortSweep => "IndexError"
  | .incomparable => "NotImplementedError"
  | .listAsKey => "TypeError"
  | .immutable _ | .computedAttribute .. => "AttributeError"
  | .noWorkers => "ValueError"

/-- The full text of a fault. -/
def text : Fault → String
  | .grammar error => error.text
  | .raised text => text
  | .other _ text => text
  | .overflow cause => cause.message
  | .noMainItem => ""
  | .unplaced => "box is not formatted"
  | .shortSweep => "string index out of range"
  | .incomparable => ""
  | .listAsKey => "unhashable type: 'list'"
  | .immutable className => className ++ " is immutable"
  | .computedAttribute className name =>
    "property '" ++ name ++ "' of '" ++ className ++ "' object has no setter"
  | .noWorkers => "max_workers must be greater than 0"

/-- The fault with a change made to its grammar error, if it is one. -/
def mapGrammar (change : GrammarError → GrammarError) : Fault → Fault
  | .grammar error => .grammar (change error)
  | fault => fault

end Fault

/-- An overflow as a fault. -/
def Overflow.lift {α : Type} (result : Except Overflow α) : Except Fault α :=
  result.mapError Fault.overflow

end SyntaxDiagram
