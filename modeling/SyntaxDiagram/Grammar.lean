import SyntaxDiagram.SymbolTable

/-!
# Grammars

A grammar is a name with rules and terminals whose references are all resolved. It is built once,
as a whole, by `Grammar.build`; any error in it carries the name of the grammar.
-/

namespace SyntaxDiagram

/-- The rules and terminals of one grammar, resolved, and the symbol table of them. -/
structure Grammar where
  name : String
  documentation : String
  rules : List Entry
  terminals : List Entry
  symbols : SymbolTable
  deriving Repr

namespace Grammar

/-! ### Building -/

/-- The listed rules, provided that nothing else is among them. -/
def rulesOf (listings : List Listing) : Except GrammarError (List Entry) :=
  listings.mapM fun
    | .entry entry =>
      if entry.kind.isRule then .ok entry else .error (.of (.notRule (.entry entry)))
    | listing => .error (.of (.notRule listing))

/-- The listed terminals, provided that nothing else is among them. -/
def terminalsOf (listings : List Listing) : Except GrammarError (List Entry) :=
  listings.mapM fun
    | .entry entry =>
      if entry.kind.isRule then .error (.of (.notTerminal (.entry entry))) else .ok entry
    | listing => .error (.of (.notTerminal listing))

/-- The resolved grammar of the listed rules and terminals; its errors do not name it yet. The
entries are all defined before the first is resolved, and the resolved ones make a table anew. -/
def assemble (name : String) (rules terminals : List Listing) (documentation : String)
    (imports : List String) : Except GrammarError Grammar := do
  let rules ← rulesOf rules
  let terminals ← terminalsOf terminals
  let symbols ← (SymbolTable.empty imports).defineAll (rules ++ terminals)
  let rules ← rules.mapM symbols.resolveEntry
  let terminals ← terminals.mapM symbols.resolveEntry
  let resolved ← (SymbolTable.empty imports).defineAll (rules ++ terminals)
  return ⟨name, documentation, rules, terminals, resolved⟩

/-- The resolved grammar of the listed rules and terminals. -/
def build (name : String) (rules terminals : List Listing) (documentation : String)
    (imports : List String) : Except GrammarError Grammar :=
  (assemble name rules terminals documentation imports).mapError (·.withSource name)

/-- The identifiers that a grammar imports. -/
def imports (grammar : Grammar) : List String :=
  grammar.symbols.imports

/-- The grammar built again from its own entries. -/
def resolve (grammar : Grammar) : Except GrammarError Grammar :=
  build grammar.name (grammar.rules.map .entry) (grammar.terminals.map .entry)
    grammar.documentation grammar.imports

/-! ### Entries -/

/-- All entries, the rules before the terminals. -/
def entries (grammar : Grammar) : List Entry :=
  grammar.rules ++ grammar.terminals

/-- The entry with an identifier, which has to be defined. Fragments are found too. -/
def entry (grammar : Grammar) (identifier : String) : Except GrammarError Entry :=
  (grammar.symbols.lookup identifier).mapError (·.withSource grammar.name)

/-- The entries that have a diagram: every rule, and every terminal that is not a fragment. -/
def diagramEntries (grammar : Grammar) : List Entry :=
  grammar.rules ++ grammar.terminals.filter (!·.kind.isFragment)

/-! ### Text -/

/-- The grammar in its own notation, a line for each entry. -/
def pretty (grammar : Grammar) : String :=
  "\n".intercalate (("grammar " ++ grammar.name) :: grammar.entries.map Entry.pretty)

/-- A short exact text of a grammar. -/
def debug (grammar : Grammar) : String :=
  "GrammarUnit(" ++ quoted grammar.name ++ ", rules=" ++ toString grammar.rules.length ++
    ", terminals=" ++ toString grammar.terminals.length ++ ")"

end Grammar

end SyntaxDiagram
