import SyntaxDiagram.Fault
import SyntaxDiagram.Grammar

/-!
# Sealed objects

Once built, an element, an entry or a grammar is sealed: its own attributes cannot be assigned, nor
can an attribute that was assigned already. Other names can be assigned once, and the assigned
value hides whatever the class of the object provides under that name.
-/

namespace SyntaxDiagram

/-- What can be sealed. -/
inductive Subject where
  | element (value : Element)
  | entry (value : Entry)
  | grammar (value : Grammar)

/-- What an attribute can hold: a plain value, or something that grammars are made of. -/
inductive Held where
  | datum (value : Datum)
  | symbolKind (kind : SymbolKind)
  | quantifier (quantifier : Quantifier)
  | subject (value : Subject)
  | elements (items : List Element)
  | alternatives (items : List (List Element))
  | entries (items : List Entry)
  | identifiers (items : List String)
  | symbols (table : SymbolTable)

namespace Held

instance : Coe Datum Held := ⟨.datum⟩

/-- Whether what is held counts as true. A grammar and a symbol table do when they have entries. -/
def countsAsTrue : Held → Bool
  | .datum value => value.countsAsTrue
  | .symbolKind _ | .quantifier _ => true
  | .subject (.grammar value) => !value.symbols.entries.isEmpty
  | .subject _ => true
  | .elements items => !items.isEmpty
  | .alternatives items => !items.isEmpty
  | .entries items => !items.isEmpty
  | .identifiers items => !items.isEmpty
  | .symbols table => !table.entries.isEmpty

/-- The kind of a reference, if it has one. -/
def kindOrNull (kind : Option SymbolKind) : Held :=
  (kind.map symbolKind).getD (.datum .null)

/-- A quantifier. A mark without a meaning is held as the text that it is. -/
def quantifierOrMark : Quantifier → Held
  | .unknown mark => .datum (.text mark)
  | known => .quantifier known

end Held

namespace Subject

/-- The name of the class of a subject. -/
def className : Subject → String
  | .element value => value.variantName
  | .entry value => value.kind.className
  | .grammar _ => "GrammarUnit"

/-- The attributes that every element, entry or grammar of this class has of its own. -/
def ownAttributes : Subject → List (String × Held)
  | .element (.literal text) => [("text", .datum (.text text))]
  | .element (.reference identifier kind) =>
    [("identifier", .datum (.text identifier)), ("kind", .kindOrNull kind)]
  | .element (.sequence items) => [("items", .elements items)]
  | .element (.alternation branches) => [("items", .elements branches)]
  | .element (.quantified item quantifier) =>
    [("item", .subject (.element item)), ("kind", .quantifierOrMark quantifier)]
  | .element (.foreign name) => [("name", .datum (.text name))]
  | .entry value =>
    [("identifier", .datum (.text value.identifier)),
      ("documentation", .datum (.text value.documentation)),
      ("alternatives", .alternatives value.alternatives)] ++
      match value.kind with
      | .rule => []
      | .terminal isFragment => [("isFragment", .datum (.bool isFragment))]
  | .grammar value =>
    [("name", .datum (.text value.name)), ("documentation", .datum (.text value.documentation)),
      ("rules", .entries value.rules), ("terminals", .entries value.terminals),
      ("_symbols", .symbols value.symbols)]

/-- The attributes that are computed from others. -/
def computedAttributes : Subject → List (String × Held)
  | .element (.reference _ kind) =>
    [("children", .elements []), ("resolved", .datum (.bool kind.isSome))]
  | .element value => [("children", .elements value.children)]
  | .entry _ => []
  | .grammar value => [("imports", .identifiers value.imports)]

/-- The attributes that a class provides for all its objects at once, for those which have none of
their own. -/
def classAttributes : Subject → List (String × Held)
  | .element value => [("isLeaf", .datum (.bool value.isLeaf))]
  | .entry value =>
    [("kind", .symbolKind value.kind.symbolKind), ("isFragment", .datum (.bool false))]
  | .grammar _ => []

end Subject

/-- A subject with the attributes assigned to it after it was built, in order. -/
structure Sealed where
  subject : Subject
  assigned : List (String × Held)

namespace Sealed

/-- A subject as it was built. -/
def of (subject : Subject) : Sealed :=
  ⟨subject, []⟩

/-- The attributes that the object itself has by now, its own and those assigned to it. -/
def dictionary (object : Sealed) : List (String × Held) :=
  object.subject.ownAttributes ++ object.assigned

/-- The value of an attribute, if there is one of this name. -/
def read? (object : Sealed) (name : String) : Option Held :=
  (object.subject.computedAttributes.lookup name).or
    ((object.dictionary.lookup name).or (object.subject.classAttributes.lookup name))

/-- The object after an assignment. Only what the object itself has is looked at, not what its class
provides. -/
def assign (object : Sealed) (name : String) (value : Held) : Except Fault Sealed :=
  let className := object.subject.className
  if (object.dictionary.lookup name).isSome then .error (.immutable className)
  else if (object.subject.computedAttributes.lookup name).isSome then
    .error (.computedAttribute className name)
  else .ok { object with assigned := object.assigned ++ [(name, value)] }

/-- Whether an attribute now equals a plain value. -/
def holds (object : Sealed) (name : String) (value : Datum) : Bool :=
  match object.read? name with
  | some (.datum held) => held.eq value
  | _ => false

/-- The text of the object in grammar notation. Of the attributes that can be assigned it shows only
whether an entry is a fragment. -/
def pretty (object : Sealed) : String :=
  match object.subject with
  | .element element => element.pretty
  | .entry entry => entry.prettyAs ((object.read? "isFragment").any Held.countsAsTrue)
  | .grammar grammar => grammar.pretty

end Sealed

end SyntaxDiagram
