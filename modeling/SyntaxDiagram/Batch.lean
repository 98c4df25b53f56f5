import SyntaxDiagram.Grammar
import SyntaxDiagram.OutputFormat

/-!
# Batches

A batch renders every diagram of some grammars in some formats. The jobs do not depend on each
other: one that fails is reported and the others go on.
-/

namespace SyntaxDiagram

/-! ### Reports -/

/-- A report of something that failed: the grammar, the entry and the format concerned, the latter
two as far as there is one. -/
structure Failure where
  grammar : String
  entry : Option String
  format : String
  message : String
  deriving DecidableEq, Repr

/-- The text of a failure. -/
def Failure.text (failure : Failure) : String :=
  let entry := match failure.entry with
    | none | some "" => ""
    | some entry => ":" ++ entry
  failure.grammar ++ entry ++
    (if failure.format.isEmpty then "" else " [" ++ failure.format ++ "]") ++
    ": " ++ failure.message

/-- What a text is the diagram of: the grammar, the entry and the format. -/
structure ArtifactKey where
  grammar : String
  entry : String
  format : String
  deriving DecidableEq, Repr

/-- What a batch has produced, in the order of first success, and what failed. -/
structure Report where
  artifacts : List (ArtifactKey × String)
  failures : List Failure
  deriving DecidableEq, Repr

namespace Report

/-- The report on nothing. -/
def empty : Report :=
  ⟨[], []⟩

/-- Whether nothing failed. -/
def isOk (report : Report) : Bool :=
  report.failures.isEmpty

/-- The artifacts with one more; a key that is there already keeps its place. -/
def insertArtifact (key : ArtifactKey) (text : String) :
    List (ArtifactKey × String) → List (ArtifactKey × String)
  | [] => [(key, text)]
  | (other, old) :: rest =>
    if other = key then (key, text) :: rest else (other, old) :: insertArtifact key text rest

/-- What a failure says: the message of a grammar error, and for any other fault also its class. -/
def faultMessage : Fault → String
  | .grammar error => error.message
  | fault => fault.className ++ ": " ++ fault.text

/-- The report with the outcome of one more job. -/
def record (report : Report) (key : ArtifactKey) : Except Fault String → Report
  | .ok text => { report with artifacts := insertArtifact key text report.artifacts }
  | .error fault =>
    { report with failures := report.failures ++
        [⟨key.grammar, some key.entry, key.format, faultMessage fault⟩] }

/-- A short exact text of a report. -/
def debug (report : Report) : String :=
  "GenerationReport(artifacts=" ++ toString report.artifacts.length ++ ", failures=" ++
    toString report.failures.length ++ ")"

end Report

/-! ### Jobs -/

/-- How the diagrams of a batch are made: the metrics and the look, a measure unless each format is
to use its own, and a renderer unless it is the usual one. -/
structure BatchSettings where
  metrics : Metrics
  theme : Theme
  measure : Option Measure
  renderer : Option (Drawing → String → Except Fault String)

/-- The text of a drawing in a format. -/
def BatchSettings.render (settings : BatchSettings) (drawing : Drawing) (format : String) :
    Except Fault String :=
  match settings.renderer with
  | some renderer => renderer drawing format
  | none => drawing.render settings.metrics settings.theme format

/-- One diagram to be made. -/
structure Job where
  grammar : String
  entry : Entry
  format : String

namespace Job

/-- What a job makes. -/
def key (job : Job) : ArtifactKey :=
  ⟨job.grammar, job.entry.identifier, job.format⟩

/-- The text of a diagram. -/
def run (settings : BatchSettings) (job : Job) : Except Fault String := do
  let measure ← match settings.measure with
    | some measure => pure measure
    | none => OutputFormat.measureFor settings.metrics job.format
  let text := do settings.render (← job.entry.layout settings.metrics measure) job.format
  text.mapError (·.mapGrammar (·.withSource job.grammar))

end Job

/-- The formats of a batch for which none are named. -/
def standardFormats : List String :=
  ["svg"]

/-- The jobs for some grammars and formats: for each grammar in turn, each entry that has a diagram,
in each format. -/
def jobsFor (grammars : List Grammar) (formats : List String) : List Job :=
  grammars.flatMap fun grammar =>
    grammar.diagramEntries.flatMap fun entry =>
      formats.map fun format => ⟨grammar.name, entry, OutputFormat.normalizeName format⟩

/-- The report on every diagram of some grammars in some formats, on a number of workers that must
be positive if it is given. -/
def generate (settings : BatchSettings) (grammars : List Grammar) (formats : List String)
    (workers : Option Int) : Except Fault Report :=
  if workers.any (· ≤ 0) then .error .noWorkers
  else .ok ((jobsFor grammars formats).foldl
    (fun report job => report.record job.key (job.run settings)) .empty)

/-! ### Building many grammars -/

/-- What a grammar is to be built from. -/
structure GrammarSource where
  name : String
  rules : List Listing
  terminals : List Listing

/-- The grammars that can be built, and a failure for each of the others. -/
def buildGrammars (sources : List GrammarSource) : List Grammar × List Failure :=
  let results := sources.map fun source =>
    (Grammar.build source.name source.rules source.terminals "" []).mapError fun error =>
      (⟨source.name, error.identifier, "", error.message⟩ : Failure)
  (results.filterMap Except.toOption, results.filterMap fun
    | .ok _ => none
    | .error failure => some failure)

end SyntaxDiagram
