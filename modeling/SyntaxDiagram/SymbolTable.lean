import SyntaxDiagram.Entry.Build

/-!
# Symbol tables

A symbol table maps identifiers to the entries of one grammar, in the order of their definition,
and knows the identifiers imported from other grammars. Entries are all defined first and resolved
afterwards, so that an entry may refer to itself and to later ones.
-/

namespace SyntaxDiagram

/-- The entries of a grammar, with distinct identifiers, and the identifiers it imports. -/
structure SymbolTable where
  entries : List Entry
  imports : List String
  deriving Repr

namespace SymbolTable

/-- The table without entries. -/
def empty (imports : List String) : SymbolTable :=
  ⟨[], imports⟩

/-! ### Look-up -/

/-- The entry with an identifier. -/
def find? (table : SymbolTable) (identifier : String) : Option Entry :=
  table.entries.find? (·.identifier == identifier)

/-- Whether an identifier is defined. -/
def contains (table : SymbolTable) (identifier : String) : Bool :=
  (table.find? identifier).isSome

/-- The entry with an identifier, which has to be defined. -/
def lookup (table : SymbolTable) (identifier : String) : Except GrammarError Entry :=
  match table.find? identifier with
  | some entry => .ok entry
  | none => .error (.about identifier .undefinedSymbol)

/-- What an identifier names. A definition hides an import of the same identifier. -/
def kindOf? (table : SymbolTable) (identifier : String) : Option SymbolKind :=
  match table.find? identifier with
  | some entry => some entry.kind.symbolKind
  | none => if table.imports.contains identifier then some .external else none

/-- What an identifier names, which has to be defined or imported. -/
def kindOf (table : SymbolTable) (identifier : String) : Except GrammarError SymbolKind :=
  match table.kindOf? identifier with
  | some kind => .ok kind
  | none => .error (.about identifier .undefinedSymbol)

/-! ### Definition -/

/-- The table with one more entry at the end. -/
def define (table : SymbolTable) (entry : Entry) : Except GrammarError SymbolTable :=
  match table.find? entry.identifier with
  | some existing =>
    .error (.about entry.identifier (.alreadyDefined existing.kind.symbolKind))
  | none => .ok { table with entries := table.entries ++ [entry] }

/-- The table with more entries, from left to right. -/
def defineAll (table : SymbolTable) (entries : List Entry) : Except GrammarError SymbolTable :=
  entries.foldlM define table

theorem define_eq_ok_iff {table table' : SymbolTable} {entry : Entry} :
    table.define entry = .ok table' ↔
      table.find? entry.identifier = none ∧
        table' = { table with entries := table.entries ++ [entry] } := by
  unfold define
  split <;> rename_i h <;> simp [h, eq_comm]

/-! ### Resolution -/

/-- The kind that a reference in an entry gets. A terminal must not refer to a rule. -/
def resolveReference (table : SymbolTable) (owner : Entry) (identifier : String) :
    Except GrammarError SymbolKind :=
  match table.kindOf? identifier with
  | none => .error (.about owner.identifier (.undefinedReference identifier))
  | some kind =>
    if !owner.kind.isRule && kind == .rule then
      .error (.about owner.identifier (.terminalReferencesRule identifier))
    else .ok kind

mutual

/-- An element of an entry with the kind of every reference, whatever kind it had before. It is
built anew from its resolved parts. -/
def resolveElement (table : SymbolTable) (owner : Entry) : Element → Except GrammarError Element
  | .literal text => .ok (.literal text)
  | .reference identifier _ => do
    let kind ← table.resolveReference owner identifier
    return .reference identifier (some kind)
  | .sequence items => do
    let items ← resolveElements table owner items
    Element.ofSequence (items.map .element)
  | .alternation branches => do
    let branches ← resolveElements table owner branches
    Element.ofAlternation (branches.map .element)
  | .quantified item quantifier => do
    let item ← resolveElement table owner item
    Element.ofQuantified (.element item) quantifier
  | .foreign name => .error (.about owner.identifier (.unknownElement (.foreign name)))

/-- Some elements of an entry with the kinds of their references, from left to right. -/
def resolveElements (table : SymbolTable) (owner : Entry) :
    List Element → Except GrammarError (List Element)
  | [] => .ok []
  | element :: rest => do
    let element ← resolveElement table owner element
    let rest ← resolveElements table owner rest
    return element :: rest

end

/-- A copy of an entry with the kind of every reference, built anew from its resolved elements. -/
def resolveEntry (table : SymbolTable) (entry : Entry) : Except GrammarError Entry := do
  let alternatives ← entry.alternatives.mapM (table.resolveElements entry)
  Entry.build entry.kind entry.identifier entry.documentation
    (alternatives.map (·.map .element))

/-! ### Text -/

/-- The imported identifiers, each once, in order of code points. -/
def sortedImports (table : SymbolTable) : List String :=
  table.imports.eraseDups.mergeSort (fun a b => !decide (b < a))

/-- A list of texts, each quoted. -/
def debugTexts (texts : List String) : String :=
  "[" ++ ", ".intercalate (texts.map quoted) ++ "]"

/-- The exact text of a table. -/
def debug (table : SymbolTable) : String :=
  "SymbolTable(" ++ debugTexts (table.entries.map (·.identifier)) ++ ", imports=" ++
    debugTexts table.sortedImports ++ ")"

end SymbolTable

end SyntaxDiagram
