import SyntaxDiagram.Batch
import SyntaxDiagram.Proofs.Grammar

/-!
# Grammars that are rejected

A grammar that cannot be built is rejected for the first thing that is wrong with it, under its own
name (`Grammar.build_eq_error_iff_rejected`).  What is listed is looked at first, rules before
terminals, then the identifiers of all entries, then what is in the entries.  Of many grammars, each
is built or rejected on its own (`Grammar.BuildsTo`).
-/

namespace SyntaxDiagram.Grammar

/-! ### What is wrong with a grammar -/

/-- Why an element of an entry is refused, among given entries and imports. -/
inductive Refuses (entries : List Entry) (imports : List String) (owner : Entry) :
    Element → ErrorClass → Cause → Prop
  | undefined {identifier : String} {kind : Option SymbolKind}
    (undefined : ∀ target ∈ entries, target.identifier ≠ identifier)
    (unimported : identifier ∉ imports) :
    Refuses entries imports owner (.reference identifier kind) .unresolved
      (.undefinedReference identifier)
  | rule {identifier : String} {kind : Option SymbolKind} {rule : Entry}
    (terminal : owner.kind ≠ .rule) (mem : rule ∈ entries)
    (isRule : rule.kind = .rule) (named : rule.identifier = identifier) :
    Refuses entries imports owner (.reference identifier kind) .invalidKind
      (.terminalReferencesRule identifier)
  | foreign (name : String) :
    Refuses entries imports owner (.foreign name) .malformed (.unknownElement (.foreign name))

/-- The word for the kind of an entry: rules are called rules, and terminals, fragments or not, are
called terminals. -/
inductive IsCalled : EntryKind → SymbolKind → Prop
  | rule : IsCalled .rule .rule
  | terminal (isFragment : Bool) : IsCalled (.terminal isFragment) .terminal

/-- The elements of some entries at any depth, each with the entry that it is in: entry after entry,
from left to right, each before those below it. -/
def placed (entries : List Entry) : List (Entry × Element) :=
  entries.flatMap fun entry => entry.walk.map fun x => (entry, x)

/-- Why the first element that is refused is refused, and the entry that it is in. -/
inductive FirstRefusal (entries : List Entry) (imports : List String) :
    Entry → ErrorClass → Cause → Prop
  | intro {before : List (Entry × Element)} {owner : Entry} {x : Element}
    {after : List (Entry × Element)} {errorClass : ErrorClass} {cause : Cause}
    (split : placed entries = before ++ (owner, x) :: after)
    (first : ∀ p ∈ before, ∀ errorClass cause,
      ¬Refuses entries imports p.1 p.2 errorClass cause)
    (refuses : Refuses entries imports owner x errorClass cause) :
    FirstRefusal entries imports owner errorClass cause

/-- What listed rules and terminals are rejected for: the class of the error, its cause and the
identifier that it concerns. -/
inductive Rejected (rules terminals : List Listing) (imports : List String) :
    ErrorClass → Cause → Option String → Prop
  | notRule {before : List Listing} {listing : Listing} {after : List Listing}
    (split : rules = before ++ listing :: after)
    (first : ∀ l ∈ before, ∃ rule, l = .entry rule ∧ rule.kind = .rule)
    (wrong : ¬∃ rule, listing = .entry rule ∧ rule.kind = .rule) :
    Rejected rules terminals imports .malformed (.notRule listing) none
  | notTerminal {before : List Listing} {listing : Listing} {after : List Listing}
    (rules_only : ∀ l ∈ rules, ∃ rule, l = .entry rule ∧ rule.kind = .rule)
    (split : terminals = before ++ listing :: after)
    (first : ∀ l ∈ before, ∃ terminal, l = .entry terminal ∧ terminal.kind ≠ .rule)
    (wrong : ¬∃ terminal, listing = .entry terminal ∧ terminal.kind ≠ .rule) :
    Rejected rules terminals imports .malformed (.notTerminal listing) none
  | duplicate {before : List Entry} {entry : Entry} {after : List Entry} {earlier : Entry}
    {kind : SymbolKind}
    (rules_only : ∀ l ∈ rules, ∃ rule, l = .entry rule ∧ rule.kind = .rule)
    (terminals_only : ∀ l ∈ terminals,
      ∃ terminal, l = .entry terminal ∧ terminal.kind ≠ .rule)
    (split : entriesOf rules ++ entriesOf terminals = before ++ entry :: after)
    (first : (before.map (·.identifier)).Nodup)
    (mem : earlier ∈ before) (same : earlier.identifier = entry.identifier)
    (called : IsCalled earlier.kind kind) :
    Rejected rules terminals imports .duplicate (.alreadyDefined kind) (some entry.identifier)
  | refused {owner : Entry} {errorClass : ErrorClass} {cause : Cause}
    (rules_only : ∀ l ∈ rules, ∃ rule, l = .entry rule ∧ rule.kind = .rule)
    (terminals_only : ∀ l ∈ terminals,
      ∃ terminal, l = .entry terminal ∧ terminal.kind ≠ .rule)
    (distinct : ((entriesOf rules ++ entriesOf terminals).map (·.identifier)).Nodup)
    (refusal : FirstRefusal (entriesOf rules ++ entriesOf terminals) imports owner errorClass
      cause) :
    Rejected rules terminals imports errorClass cause (some owner.identifier)

/-- The word for the kind of an entry is that for the kind of a reference to it. -/
theorem isCalled_iff {kind : EntryKind} {symbolKind : SymbolKind} :
    IsCalled kind symbolKind ↔ kind.symbolKind = symbolKind := by
  constructor
  · rintro (_ | _) <;> rfl
  · rintro rfl
    cases kind with
    | rule => exact .rule
    | terminal isFragment => exact .terminal isFragment

/-! ### Listings -/

theorem mapM_listing_eq_error_iff {f : Listing → Except GrammarError Entry} {P : Entry → Prop}
    {cause : Listing → Cause}
    (hok : ∀ listings entries, listings.mapM f = .ok entries ↔
      (∀ listing ∈ listings, ∃ entry, listing = .entry entry ∧ P entry) ∧
        entries = entriesOf listings)
    (herror : ∀ listing error, f listing = .error error ↔
      (¬∃ entry, listing = .entry entry ∧ P entry) ∧ error = .of (cause listing))
    {listings : List Listing} {error : GrammarError} :
    listings.mapM f = .error error ↔
      ∃ before listing after, listings = before ++ listing :: after ∧
        (∀ l ∈ before, ∃ entry, l = .entry entry ∧ P entry) ∧
        (¬∃ entry, listing = .entry entry ∧ P entry) ∧ error = .of (cause listing) := by
  rw [mapM_eq_error_iff]
  simp only [hok, herror]
  constructor
  · rintro ⟨before, listing, after, _, hsplit, ⟨hbefore, rfl⟩, hwrong⟩
    exact ⟨before, listing, after, hsplit, hbefore, hwrong⟩
  · rintro ⟨before, listing, after, hsplit, hbefore, hwrong⟩
    exact ⟨before, listing, after, _, hsplit, ⟨hbefore, rfl⟩, hwrong⟩

/-- The rules given are refused at the first one that is not a rule. -/
theorem rulesOf_eq_error_iff {listings : List Listing} {error : GrammarError} :
    rulesOf listings = .error error ↔
      ∃ before listing after, listings = before ++ listing :: after ∧
        (∀ l ∈ before, ∃ rule, l = .entry rule ∧ rule.kind = .rule) ∧
        (¬∃ rule, listing = .entry rule ∧ rule.kind = .rule) ∧
        error = .of (.notRule listing) := by
  refine mapM_listing_eq_error_iff (fun _ _ => rulesOf_eq_ok_iff) fun listing error => ?_
  cases listing with
  | entry value =>
    cases hrule : value.kind.isRule with
    | true => grind [EntryKind.isRule_iff]
    | false => grind [EntryKind.isRule_eq_false_iff]
  | datum value => grind

/-- The terminals given are refused at the first one that is not a terminal. -/
theorem terminalsOf_eq_error_iff {listings : List Listing} {error : GrammarError} :
    terminalsOf listings = .error error ↔
      ∃ before listing after, listings = before ++ listing :: after ∧
        (∀ l ∈ before, ∃ terminal, l = .entry terminal ∧ terminal.kind ≠ .rule) ∧
        (¬∃ terminal, listing = .entry terminal ∧ terminal.kind ≠ .rule) ∧
        error = .of (.notTerminal listing) := by
  refine mapM_listing_eq_error_iff (fun _ _ => terminalsOf_eq_ok_iff) fun listing error => ?_
  cases listing with
  | entry value =>
    cases hrule : value.kind.isRule with
    | true => grind [EntryKind.isRule_iff]
    | false => grind [EntryKind.isRule_eq_false_iff]
  | datum value => grind

/-! ### Entries -/

section entries

variable {entries : List Entry} {imports : List String}

/-- The error of a reference names its owner and why it is refused. -/
theorem resolveReference_eq_error_iff (hdistinct : (entries.map (·.identifier)).Nodup)
    {owner : Entry} {identifier : String} {kind : Option SymbolKind} {error : GrammarError} :
    SymbolTable.resolveReference ⟨entries, imports⟩ owner identifier = .error error ↔
      ∃ errorClass cause,
        Refuses entries imports owner (.reference identifier kind) errorClass cause ∧
          error = .about owner.identifier cause := by
  have hnone := @SymbolTable.kindOf?_eq_none_iff ⟨entries, imports⟩ identifier
  have hrule := @SymbolTable.kindOf?_eq_rule_iff ⟨entries, imports⟩ hdistinct identifier
  rw [SymbolTable.resolveReference_eq_error_iff, hnone, hrule]
  simp only [EntryKind.isRule_iff, EntryKind.isRule_eq_false_iff]
  constructor
  · rintro (⟨⟨undefined, unimported⟩, rfl⟩ | ⟨⟨rule, mem, named, isRule⟩, terminal, rfl⟩)
    · exact ⟨_, _, .undefined undefined unimported, rfl⟩
    · exact ⟨_, _, .rule terminal mem isRule named, rfl⟩
  · rintro ⟨_, _, hrefuses, rfl⟩
    cases hrefuses with
    | undefined undefined unimported => exact Or.inl ⟨⟨undefined, unimported⟩, rfl⟩
    | rule terminal mem isRule named => exact Or.inr ⟨⟨_, mem, named, isRule⟩, terminal, rfl⟩

/-- The error of any element names its owner and why it is refused. -/
theorem refusal?_eq_some_iff (hdistinct : (entries.map (·.identifier)).Nodup) {owner : Entry}
    {x : Element} {error : GrammarError} :
    SymbolTable.refusal? ⟨entries, imports⟩ owner x = some error ↔
      ∃ errorClass cause, Refuses entries imports owner x errorClass cause ∧
        error = .about owner.identifier cause := by
  cases x with
  | reference identifier kind =>
    rw [SymbolTable.refusal?, error?_eq_some_iff]
    exact resolveReference_eq_error_iff hdistinct
  | foreign name =>
    rw [SymbolTable.refusal?, Option.some.injEq]
    constructor
    · rintro rfl
      exact ⟨_, _, .foreign name, rfl⟩
    · rintro ⟨_, _, hrefuses, rfl⟩
      cases hrefuses with
      | foreign => rfl
  | _ =>
    constructor
    · intro h
      cases h
    · rintro ⟨_, _, hrefuses, -⟩
      cases hrefuses

theorem refusal?_eq_none_iff (hdistinct : (entries.map (·.identifier)).Nodup) {owner : Entry}
    {x : Element} :
    SymbolTable.refusal? ⟨entries, imports⟩ owner x = none ↔
      ∀ errorClass cause, ¬Refuses entries imports owner x errorClass cause := by
  rw [Option.eq_none_iff_forall_ne_some]
  simp only [ne_eq, refusal?_eq_some_iff hdistinct]
  constructor
  · intro h errorClass cause hrefuses
    exact h _ ⟨errorClass, cause, hrefuses, rfl⟩
  · rintro h error ⟨errorClass, cause, hrefuses, -⟩
    exact h errorClass cause hrefuses

/-- The resolution of all entries in normal form fails at the first element that is refused. -/
theorem mapM_resolveEntry_eq_error_iff (hdistinct : (entries.map (·.identifier)).Nodup)
    (hnormal : ∀ entry ∈ entries, entry.Normal) {error : GrammarError} :
    entries.mapM (SymbolTable.resolveEntry ⟨entries, imports⟩) = .error error ↔
      ∃ owner errorClass cause, FirstRefusal entries imports owner errorClass cause ∧
        error = .about owner.identifier cause := by
  have hentry : ∀ entry ∈ entries, error? (SymbolTable.resolveEntry ⟨entries, imports⟩ entry) =
      (entry.walk.map fun x => (entry, x)).findSome? fun p =>
        SymbolTable.refusal? ⟨entries, imports⟩ p.1 p.2 := by
    intro entry hmem
    rw [SymbolTable.error?_resolveEntry (hnormal entry hmem), List.findSome?_map]
    rfl
  rw [← error?_eq_some_iff, error?_mapM_of_forall hentry, ← placed, List.findSome?_eq_some_iff]
  simp only [refusal?_eq_some_iff hdistinct, refusal?_eq_none_iff hdistinct]
  constructor
  · rintro ⟨before, ⟨owner, x⟩, after, hsplit, ⟨errorClass, cause, hrefuses, herror⟩, hbefore⟩
    exact ⟨owner, errorClass, cause, ⟨hsplit, hbefore, hrefuses⟩, herror⟩
  · rintro ⟨owner, errorClass, cause, ⟨hsplit, hbefore, hrefuses⟩, herror⟩
    exact ⟨_, (owner, _), _, hsplit, ⟨errorClass, cause, hrefuses, herror⟩, hbefore⟩

end entries

/-! ### Building -/

/-- Once all entries are defined, building fails where the resolution of all of them does. -/
theorem resolution_eq_error_iff {rules terminals : List Entry} {imports : List String}
    (name documentation : String) (hdistinct : ((rules ++ terminals).map (·.identifier)).Nodup)
    {table : SymbolTable} {error : GrammarError} :
    (do
      let rules' ← rules.mapM table.resolveEntry
      let terminals' ← terminals.mapM table.resolveEntry
      let resolved ← (SymbolTable.empty imports).defineAll (rules' ++ terminals')
      return (⟨name, documentation, rules', terminals', resolved⟩ : Grammar)) = .error error ↔
      (rules ++ terminals).mapM table.resolveEntry = .error error := by
  have hdefine (rules' terminals' : List Entry)
      (hrules : rules.mapM table.resolveEntry = .ok rules')
      (hterminals : terminals.mapM table.resolveEntry = .ok terminals') :
      error? (do
        let resolved ← (SymbolTable.empty imports).defineAll (rules' ++ terminals')
        return (⟨name, documentation, rules', terminals', resolved⟩ : Grammar)) = none := by
    -- under the same identifiers as before
    rw [List.map_append, ← SymbolTable.map_eq_map_of_mapM_resolveEntry _ hrules fun _ _ => rfl,
      ← SymbolTable.map_eq_map_of_mapM_resolveEntry _ hterminals fun _ _ => rfl,
      ← List.map_append] at hdistinct
    rw [SymbolTable.defineAll_empty_eq_ok_iff.mpr ⟨hdistinct, rfl⟩]
    rfl
  rw [← error?_eq_some_iff, ← error?_eq_some_iff,
    error?_bind_of_forall fun rules' hrules => error?_bind_of_forall fun terminals' hterminals =>
      hdefine rules' terminals' hrules hterminals,
    Option.or_none, error?_mapM, error?_mapM, error?_mapM, List.findSome?_append]

section rejected

variable {name documentation : String} {rules terminals : List Listing} {imports : List String}

/-- The class of a rejection is that of its cause. -/
theorem Rejected.errorClass_eq {errorClass : ErrorClass} {cause : Cause}
    {identifier : Option String}
    (h : Rejected rules terminals imports errorClass cause identifier) :
    cause.errorClass = errorClass := by
  cases h with
  | refused _ _ _ refusal =>
    obtain ⟨-, -, refuses⟩ := refusal
    cases refuses <;> rfl
  | _ => rfl

/-- Putting a grammar together fails iff it is rejected, for the first reason there is. -/
theorem assemble_eq_error_iff {error : GrammarError}
    (hnormal : ∀ entry ∈ entriesOf rules ++ entriesOf terminals, entry.Normal) :
    assemble name rules terminals documentation imports = .error error ↔
      ∃ errorClass cause identifier,
        Rejected rules terminals imports errorClass cause identifier ∧
          error = ⟨cause, identifier, none⟩ := by
  -- stage by stage, each on what the stages before it give
  rw [assemble, bind_eq_error_iff_of_forall fun _ => rulesOf_eq_ok_iff,
    bind_eq_error_iff_of_forall fun _ => terminalsOf_eq_ok_iff,
    bind_eq_error_iff_of_forall fun _ => SymbolTable.defineAll_empty_eq_ok_iff,
    rulesOf_eq_error_iff, terminalsOf_eq_error_iff, SymbolTable.defineAll_empty_eq_error_iff]
  constructor
  · rintro (⟨_, _, _, split, first, wrong, rfl⟩ | ⟨rules_only,
      ⟨_, _, _, split, first, wrong, rfl⟩ | ⟨terminals_only,
      ⟨_, _, _, split, first, _, mem, same, rfl⟩ | ⟨distinct, h⟩⟩⟩)
    · exact ⟨_, _, _, .notRule split first wrong, rfl⟩
    · exact ⟨_, _, _, .notTerminal rules_only split first wrong, rfl⟩
    · exact ⟨_, _, _, .duplicate rules_only terminals_only split first mem same
        (isCalled_iff.mpr rfl), rfl⟩
    · obtain ⟨_, _, _, refusal, rfl⟩ :=
        (mapM_resolveEntry_eq_error_iff distinct hnormal).mp
          ((resolution_eq_error_iff name documentation distinct).mp h)
      exact ⟨_, _, _, .refused rules_only terminals_only distinct refusal, rfl⟩
  · rintro ⟨_, _, _, hrejected, rfl⟩
    cases hrejected with
    | notRule split first wrong => exact Or.inl ⟨_, _, _, split, first, wrong, rfl⟩
    | notTerminal rules_only split first wrong =>
      exact Or.inr ⟨rules_only, Or.inl ⟨_, _, _, split, first, wrong, rfl⟩⟩
    | duplicate rules_only terminals_only split first mem same called =>
      obtain rfl := isCalled_iff.mp called
      exact Or.inr ⟨rules_only, Or.inr ⟨terminals_only,
        Or.inl ⟨_, _, _, split, first, _, mem, same, rfl⟩⟩⟩
    | refused rules_only terminals_only distinct refusal =>
      exact Or.inr ⟨rules_only, Or.inr ⟨terminals_only, Or.inr ⟨distinct,
        (resolution_eq_error_iff name documentation distinct).mpr
          ((mapM_resolveEntry_eq_error_iff distinct hnormal).mpr ⟨_, _, _, refusal, rfl⟩)⟩⟩⟩

/-- The error of a grammar that cannot be built names the grammar as its source. -/
theorem build_eq_error_iff {error : GrammarError}
    (hnormal : ∀ entry ∈ entriesOf rules ++ entriesOf terminals, entry.Normal) :
    build name rules terminals documentation imports = .error error ↔
      error.source = some name ∧
        Rejected rules terminals imports error.cause.errorClass error.cause error.identifier := by
  rw [build, mapError_eq_error_iff]
  simp only [assemble_eq_error_iff hnormal]
  constructor
  · rintro ⟨_, ⟨errorClass, cause, identifier, hrejected, rfl⟩, rfl⟩
    refine ⟨rfl, ?_⟩
    show Rejected rules terminals imports cause.errorClass cause identifier
    rwa [hrejected.errorClass_eq]
  · rintro ⟨hsource, hrejected⟩
    refine ⟨_, ⟨_, _, _, hrejected, rfl⟩, ?_⟩
    cases error with
    | mk cause identifier source =>
      obtain rfl : source = some name := hsource
      rfl

end rejected

/-! ### Many grammars -/

/-- What becomes of grammars to be built: one that is consistent is built, and for each of the
others there is a failure with what it is rejected for, both in the given order. -/
inductive BuildsTo : List GrammarSource → List Grammar → List Failure → Prop
  | nil : BuildsTo [] [] []
  | built {source : GrammarSource} {sources : List GrammarSource} {grammars : List Grammar}
    {failures : List Failure} (consistent : Consistent source.rules source.terminals [])
    (rest : BuildsTo sources grammars failures) :
    BuildsTo (source :: sources)
      (resolved source.name source.rules source.terminals "" [] :: grammars) failures
  | rejected {source : GrammarSource} {sources : List GrammarSource} {grammars : List Grammar}
    {failures : List Failure} {errorClass : ErrorClass} {cause : Cause}
    {identifier : Option String}
    (rejected : Rejected source.rules source.terminals [] errorClass cause identifier)
    (rest : BuildsTo sources grammars failures) :
    BuildsTo (source :: sources) grammars
      (⟨source.name, identifier, "", cause.message⟩ :: failures)

/-- A grammar that is built goes before those of the sources after it. -/
theorem buildGrammars_cons_of_ok {source : GrammarSource} {sources : List GrammarSource}
    {g : Grammar} (h : build source.name source.rules source.terminals "" [] = .ok g) :
    buildGrammars (source :: sources) =
      (g :: (buildGrammars sources).1, (buildGrammars sources).2) := by
  rw [buildGrammars, List.map_cons, h]
  rfl

/-- A source that cannot be built goes to the failures, before those of the sources after it. -/
theorem buildGrammars_cons_of_error {source : GrammarSource} {sources : List GrammarSource}
    {error : GrammarError}
    (h : build source.name source.rules source.terminals "" [] = .error error) :
    buildGrammars (source :: sources) = ((buildGrammars sources).1,
      ⟨source.name, error.identifier, "", error.message⟩ :: (buildGrammars sources).2) := by
  rw [buildGrammars, List.map_cons, h]
  rfl

/-- Every source is built or fails, in order, by induction on the sources. -/
theorem buildsTo_buildGrammars {sources : List GrammarSource}
    (hnormal : ∀ source ∈ sources,
      ∀ entry ∈ entriesOf source.rules ++ entriesOf source.terminals, entry.Normal) :
    BuildsTo sources (buildGrammars sources).1 (buildGrammars sources).2 := by
  induction sources with
  | nil => exact .nil
  | cons source sources ih =>
    rw [List.forall_mem_cons] at hnormal
    cases hbuild : build source.name source.rules source.terminals "" [] with
    | ok g =>
      rw [buildGrammars_cons_of_ok hbuild]
      rw [build, mapError_eq_ok_iff, assemble_eq_ok_iff hnormal.1] at hbuild
      obtain ⟨hconsistent, rfl⟩ := hbuild
      exact .built hconsistent (ih hnormal.2)
    | error error =>
      rw [buildGrammars_cons_of_error hbuild]
      exact .rejected ((build_eq_error_iff hnormal.1).mp hbuild).2 (ih hnormal.2)

/-- A grammar of listed entries, each as it was built, is rejected under its name, for the first
thing that is wrong with it and for nothing else. Of many grammars, all that are consistent are
built, and each of the others is reported with what it is rejected for. -/
theorem build_eq_error_iff_rejected {sources : List GrammarSource}
    (hbuilt : ∀ source ∈ sources, ∀ entry, .entry entry ∈ source.rules ++ source.terminals →
      ∃ node : EntryNode, node.build = .ok entry) :
    (∀ source ∈ sources, ∀ documentation imports error,
      build source.name source.rules source.terminals documentation imports = .error error ↔
        error.source = some source.name ∧
          Rejected source.rules source.terminals imports error.cause.errorClass error.cause
            error.identifier) ∧
      BuildsTo sources (buildGrammars sources).1 (buildGrammars sources).2 := by
  have hnormal : ∀ source ∈ sources,
      ∀ entry ∈ entriesOf source.rules ++ entriesOf source.terminals, entry.Normal := by
    intro source hsource entry hentry
    rw [List.mem_append, mem_entriesOf, mem_entriesOf, ← List.mem_append] at hentry
    obtain ⟨node, hnode⟩ := hbuilt source hsource entry hentry
    exact EntryNode.normal_of_build hnode
  exact ⟨fun source hsource _ _ _ => build_eq_error_iff (hnormal source hsource),
    buildsTo_buildGrammars hnormal⟩

/-- A consistent grammar among some with several faults each. -/
def mixedSources : List GrammarSource :=
  [⟨"Clash", [.entry ⟨.rule, "a", "", [[.reference "nowhere" none]]⟩],
      [.entry ⟨.terminal false, "a", "", [[.literal "x"]]⟩]⟩,
    ⟨"List", [.entry ⟨.rule, "list", "", [[.reference "ITEM" none]]⟩],
      [.entry ⟨.terminal false, "ITEM", "", [[.literal "x"]]⟩]⟩,
    ⟨"Nested", [.entry ⟨.rule, "a", "", [[.literal "x"], [.reference "A" none,
        .quantified (.reference "nowhere" none) .star, .foreign "Range"]]⟩],
      [.entry ⟨.terminal false, "A", "", [[.reference "a" none]]⟩]⟩,
    ⟨"Twice", [.entry ⟨.rule, "a", "", [[.reference "A" none]]⟩],
      [.entry ⟨.terminal true, "A", "", [[.literal "x"]]⟩,
        .entry ⟨.terminal false, "A", "", [[.reference "a" none]]⟩]⟩]

/-- Of several faults the first one counts: a name that is taken, by a rule or by a fragment, before
a reference to nothing or to a rule, and what is in a rule before a terminal that refers to a
rule. -/
theorem build_mixedSources :
    (∀ source ∈ mixedSources, ∀ entry, .entry entry ∈ source.rules ++ source.terminals →
        ∃ node : EntryNode, node.build = .ok entry) ∧
      BuildsTo mixedSources
        [resolved "List" [.entry ⟨.rule, "list", "", [[.reference "ITEM" none]]⟩]
          [.entry ⟨.terminal false, "ITEM", "", [[.literal "x"]]⟩] "" []]
        [⟨"Clash", some "a", "", "already defined as a rule"⟩,
          ⟨"Nested", some "a", "", "reference to undefined symbol 'nowhere'"⟩,
          ⟨"Twice", some "A", "", "already defined as a terminal"⟩] := by
  have hbuilt : ∀ source ∈ mixedSources, ∀ entry,
      .entry entry ∈ source.rules ++ source.terminals →
        ∃ node : EntryNode, node.build = .ok entry := by
    intro source hsource entry hentry
    simp only [mixedSources, List.mem_cons, List.not_mem_nil, or_false] at hsource
    rcases hsource with rfl | rfl | rfl | rfl <;>
      simp only [List.cons_append, List.nil_append, List.mem_cons, Listing.entry.injEq,
        List.not_mem_nil, or_false] at hentry <;> rcases hentry with rfl | rfl | rfl
    · exact ⟨⟨.rule, "a", "", [[.reference "nowhere" none]]⟩, rfl⟩
    · exact ⟨⟨.terminal false, "a", "", [[.literal "x"]]⟩, rfl⟩
    · exact ⟨⟨.rule, "list", "", [[.reference "ITEM" none]]⟩, rfl⟩
    · exact ⟨⟨.terminal false, "ITEM", "", [[.literal "x"]]⟩, rfl⟩
    · exact ⟨⟨.rule, "a", "", [[.literal "x"], [.reference "A" none,
        .quantified (.reference "nowhere" none) .star, .foreign "Range"]]⟩, rfl⟩
    · exact ⟨⟨.terminal false, "A", "", [[.reference "a" none]]⟩, rfl⟩
    · exact ⟨⟨.rule, "a", "", [[.reference "A" none]]⟩, rfl⟩
    · exact ⟨⟨.terminal true, "A", "", [[.datum (.text "x")]]⟩, rfl⟩
    · exact ⟨⟨.terminal false, "A", "", [[.reference "a" none]]⟩, rfl⟩
  have hgrammars : (buildGrammars mixedSources).1 =
      [resolved "List" [.entry ⟨.rule, "list", "", [[.reference "ITEM" none]]⟩]
        [.entry ⟨.terminal false, "ITEM", "", [[.literal "x"]]⟩] "" []] := rfl
  have hfailures : (buildGrammars mixedSources).2 =
      [⟨"Clash", some "a", "", "already defined as a rule"⟩,
        ⟨"Nested", some "a", "", "reference to undefined symbol 'nowhere'"⟩,
        ⟨"Twice", some "A", "", "already defined as a terminal"⟩] := by
    decide +kernel
  refine ⟨hbuilt, ?_⟩
  rw [← hgrammars, ← hfailures]
  exact (build_eq_error_iff_rejected hbuilt).2

end SyntaxDiagram.Grammar
