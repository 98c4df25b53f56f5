import SyntaxDiagram.Entry.Basic

/-!
# Errors of a grammar

Everything that can be wrong with a grammar or with asking for its diagrams. A `GrammarError` is a
cause together with the identifier it concerns and the grammar it was met in, when these are known.
-/

namespace SyntaxDiagram

/-- The classes of grammar errors. -/
inductive ErrorClass where
  | general
  | malformed
  | duplicate
  | unresolved
  | invalidKind
  | unmeasurable
  | unknownFormat
  deriving DecidableEq, Repr

namespace ErrorClass

/-- The name of a class of errors. -/
def name : ErrorClass → String
  | .general => "GrammarError"
  | .malformed => "MalformedGrammarError"
  | .duplicate => "DuplicateSymbolError"
  | .unresolved => "UnresolvedReferenceError"
  | .invalidKind => "InvalidReferenceKindError"
  | .unmeasurable => "UnmeasurableLabelError"
  | .unknownFormat => "UnknownFormatError"

/-- The class with a given name. -/
def ofName? (name : String) : Option ErrorClass :=
  [general, malformed, duplicate, unresolved, invalidKind, unmeasurable, unknownFormat].find?
    (·.name == name)

end ErrorClass

/-- What is wrong. -/
inductive Cause where
  /-- A sequence without elements. -/
  | emptySequence
  /-- An alternation without branches. -/
  | emptyAlternation
  /-- A value where an element is expected. -/
  | notElement (value : Datum)
  /-- An entry without an identifier. -/
  | missingIdentifier
  /-- An element other than a leaf in a terminal. -/
  | compositeInTerminal (element : Element)
  /-- Something else listed among the rules. -/
  | notRule (value : Listing)
  /-- Something else listed among the terminals. -/
  | notTerminal (value : Listing)
  /-- An identifier that an entry of this kind has already. -/
  | alreadyDefined (kind : SymbolKind)
  /-- An identifier that nothing defines. -/
  | undefinedSymbol
  /-- A reference to an identifier that nothing defines. -/
  | undefinedReference (identifier : String)
  /-- A reference in a terminal to a rule. -/
  | terminalReferencesRule (identifier : String)
  /-- An element outside the closed set of variants. -/
  | unknownElement (element : Element)
  /-- A quantifier without a meaning. -/
  | unknownQuantifier (mark : String)
  /-- A label whose measured width is not a positive finite number. -/
  | unmeasurable (label : String) (width : Option Number)
  /-- An output format that does not exist. -/
  | unknownFormat (name : String)
  /-- Whatever a caller states. -/
  | stated (errorClass : ErrorClass) (message : String)
  deriving Repr

namespace Cause

/-- The class of errors with this cause. -/
def errorClass : Cause → ErrorClass
  | .emptySequence | .emptyAlternation | .notElement _ | .missingIdentifier
  | .compositeInTerminal _ | .notRule _ | .notTerminal _ | .unknownElement _
  | .unknownQuantifier _ => .malformed
  | .alreadyDefined _ => .duplicate
  | .undefinedSymbol | .undefinedReference _ => .unresolved
  | .terminalReferencesRule _ => .invalidKind
  | .unmeasurable .. => .unmeasurable
  | .unknownFormat _ => .unknownFormat
  | .stated errorClass _ => errorClass

/-- The exact text of a measured width. -/
def debugWidth : Option Number → String
  | none => "None"
  | some width => width.debug

/-- What the error says, without where it was met. -/
def message : Cause → String
  | .emptySequence => "a sequence needs at least one element"
  | .emptyAlternation => "an alternation needs at least one branch"
  | .notElement value => "not a grammar element: " ++ value.debug
  | .missingIdentifier => "an entry needs an identifier"
  | .compositeInTerminal element =>
    "terminals may only hold literals and references, not " ++ element.debug
  | .notRule value => "not a rule: " ++ value.debug
  | .notTerminal value => "not a terminal: " ++ value.debug
  | .alreadyDefined kind => "already defined as a " ++ kind.name
  | .undefinedSymbol => "undefined symbol"
  | .undefinedReference identifier => "reference to undefined symbol " ++ quoted identifier
  | .terminalReferencesRule identifier => "terminal references rule " ++ quoted identifier
  | .unknownElement element => "unknown grammar element " ++ element.debug
  | .unknownQuantifier mark => "unknown quantifier " ++ quoted mark
  | .unmeasurable label width =>
    "label " ++ quoted label ++ " measured to non-positive width " ++ debugWidth width
  | .unknownFormat name => "unknown format " ++ quoted name ++ ", expected one of svg, html"
  | .stated _ message => message

end Cause

/-- A cause, with the identifier it concerns and the name of the grammar it was met in. -/
structure GrammarError where
  cause : Cause
  identifier : Option String
  source : Option String
  deriving Repr

namespace GrammarError

/-- An error that concerns no identifier and no grammar yet. -/
def of (cause : Cause) : GrammarError :=
  ⟨cause, none, none⟩

/-- An error that concerns an identifier. -/
def about (identifier : String) (cause : Cause) : GrammarError :=
  ⟨cause, some identifier, none⟩

/-- What the error says, without where it was met. -/
def message (error : GrammarError) : String :=
  error.cause.message

/-- The error with an identifier, unless it has one. -/
def withIdentifier (error : GrammarError) (identifier : String) : GrammarError :=
  { error with identifier := error.identifier <|> some identifier }

/-- The error with the name of a grammar, unless it has one. -/
def withSource (error : GrammarError) (source : String) : GrammarError :=
  { error with source := error.source <|> some source }

/-- The full text: the grammar and the identifier as far as they are known, then the message. -/
def text (error : GrammarError) : String :=
  match error.source.toList ++ error.identifier.toList with
  | [] => error.message
  | place => ":".intercalate place ++ ": " ++ error.message

theorem withSource_withSource (error : GrammarError) (a b : String) :
    (error.withSource a).withSource b = error.withSource a := by
  cases error with
  | mk cause identifier source => cases source <;> rfl

end GrammarError

end SyntaxDiagram
