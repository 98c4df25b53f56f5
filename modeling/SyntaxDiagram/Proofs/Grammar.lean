import SyntaxDiagram.Grammar
import SyntaxDiagram.Proofs.SymbolTable

/-!
# Consistent grammars

A grammar is built from the listed rules and terminals iff they are consistent, and then it is made
of the same entries, in which nothing but the kinds of references is new
(`Grammar.build_eq_ok_iff_consistent`).  A reference names a listed rule, a listed terminal or, if
neither has its identifier, something imported (`Grammar.kindNamed`); with distinct identifiers this
is what a symbol table of the listed entries says (`Grammar.kind_eq_kindNamed`).
-/

namespace SyntaxDiagram

/-- The listed entry, unless something else is listed. -/
def Listing.entry? : Listing → Option Entry
  | .entry value => some value
  | .datum _ => none

namespace Grammar

/-- The listed entries. -/
def entriesOf (listings : List Listing) : List Entry :=
  listings.filterMap Listing.entry?

/-- The listed rules and terminals make a grammar: only rules are listed as rules and only terminals
as terminals, no two have the same identifier, all elements are of known variants, all references
are to listed entries or to imports, and none is from a terminal to a rule. -/
structure Consistent (rules terminals : List Listing) (imports : List String) : Prop where
  rules_only : ∀ listing ∈ rules, ∃ rule, listing = .entry rule ∧ rule.kind = .rule
  terminals_only : ∀ listing ∈ terminals,
    ∃ terminal, listing = .entry terminal ∧ terminal.kind ≠ .rule
  distinct : ((entriesOf rules ++ entriesOf terminals).map (·.identifier)).Nodup
  closed : ∀ entry ∈ entriesOf rules ++ entriesOf terminals, ∀ name, .foreign name ∉ entry.walk
  defined : ∀ entry ∈ entriesOf rules ++ entriesOf terminals, ∀ identifier kind,
    .reference identifier kind ∈ entry.walk →
      (∃ target ∈ entriesOf rules ++ entriesOf terminals, target.identifier = identifier) ∨
        identifier ∈ imports
  terminals_closed : ∀ terminal ∈ entriesOf terminals, ∀ identifier kind,
    .reference identifier kind ∈ terminal.walk →
      ∀ rule ∈ entriesOf rules, rule.identifier ≠ identifier

/-- What an identifier names: a rule or a terminal that has it, whether or not it is imported as
well, and else something imported. -/
def kindNamed (rules terminals : List Entry) (identifier : String) : SymbolKind :=
  if ∃ rule ∈ rules, rule.identifier = identifier then .rule
  else if ∃ terminal ∈ terminals, terminal.identifier = identifier then .terminal
  else .external

/-- The grammar of the listed entries, in which every reference has the kind of what it names. -/
def resolved (name : String) (rules terminals : List Listing) (documentation : String)
    (imports : List String) : Grammar :=
  let kind := kindNamed (entriesOf rules) (entriesOf terminals)
  let rules := (entriesOf rules).map (Entry.withKinds kind)
  let terminals := (entriesOf terminals).map (Entry.withKinds kind)
  ⟨name, documentation, rules, terminals, ⟨rules ++ terminals, imports⟩⟩

/-! ### Listings -/

theorem mapM_listing_eq_ok_iff {f : Listing → Except GrammarError Entry} {P : Entry → Prop}
    (hf : ∀ listing entry, f listing = .ok entry ↔ listing = .entry entry ∧ P entry)
    {listings : List Listing} {entries : List Entry} :
    listings.mapM f = .ok entries ↔
      (∀ listing ∈ listings, ∃ entry, listing = .entry entry ∧ P entry) ∧
        entries = entriesOf listings := by
  induction listings generalizing entries with
  | nil =>
    rw [List.mapM_nil, pure_eq_ok_iff]
    simp [entriesOf, eq_comm]
  | cons listing rest ih =>
    rw [List.mapM_cons, bind_eq_ok_iff, List.forall_mem_cons]
    simp only [bind_eq_ok_iff, pure_eq_ok_iff, hf, ih]
    constructor
    · rintro ⟨entry, ⟨rfl, hP⟩, _, ⟨hrest, rfl⟩, rfl⟩
      exact ⟨⟨⟨entry, rfl, hP⟩, hrest⟩, rfl⟩
    · rintro ⟨⟨⟨entry, rfl, hP⟩, hrest⟩, rfl⟩
      exact ⟨entry, ⟨rfl, hP⟩, entriesOf rest, ⟨hrest, rfl⟩, rfl⟩

theorem rulesOf_eq_ok_iff {listings : List Listing} {rules : List Entry} :
    rulesOf listings = .ok rules ↔
      (∀ listing ∈ listings, ∃ rule, listing = .entry rule ∧ rule.kind = .rule) ∧
        rules = entriesOf listings := by
  refine mapM_listing_eq_ok_iff fun listing entry => ?_
  cases listing with
  | entry value =>
    cases hrule : value.kind.isRule with
    | true => grind [EntryKind.isRule_iff]
    | false => grind [EntryKind.isRule_eq_false_iff]
  | datum value => simp

theorem terminalsOf_eq_ok_iff {listings : List Listing} {terminals : List Entry} :
    terminalsOf listings = .ok terminals ↔
      (∀ listing ∈ listings, ∃ terminal, listing = .entry terminal ∧ terminal.kind ≠ .rule) ∧
        terminals = entriesOf listings := by
  refine mapM_listing_eq_ok_iff fun listing entry => ?_
  cases listing with
  | entry value =>
    cases hrule : value.kind.isRule with
    | true => grind [EntryKind.isRule_iff]
    | false => grind [EntryKind.isRule_eq_false_iff]
  | datum value => simp

theorem mem_entriesOf {listings : List Listing} {entry : Entry} :
    entry ∈ entriesOf listings ↔ .entry entry ∈ listings := by
  rw [entriesOf, List.mem_filterMap]
  constructor
  · rintro ⟨listing, hmem, h⟩
    cases listing with
    | entry value => rwa [← Option.some.inj h]
    | datum value => exact absurd h (by simp [Listing.entry?])
  · exact fun h => ⟨_, h, rfl⟩

/-- What holds of all that is listed holds of the listed entries. -/
theorem forall_mem_entriesOf {listings : List Listing} {P : Entry → Prop}
    (h : ∀ listing ∈ listings, ∃ entry, listing = .entry entry ∧ P entry) :
    ∀ entry ∈ entriesOf listings, P entry := by
  intro entry hmem
  obtain ⟨entry', heq, hP⟩ := h _ (mem_entriesOf.mp hmem)
  rwa [Listing.entry.inj heq]

/-! ### What identifiers name -/

/-- With distinct identifiers, the symbol table of the listed entries gives each identifier the kind
of what it names. -/
theorem kind_eq_kindNamed {rules terminals : List Entry} (imports : List String)
    (hrules : ∀ rule ∈ rules, rule.kind = .rule)
    (hterminals : ∀ terminal ∈ terminals, terminal.kind ≠ .rule)
    (hdistinct : ((rules ++ terminals).map (·.identifier)).Nodup) :
    SymbolTable.kind ⟨rules ++ terminals, imports⟩ = kindNamed rules terminals := by
  have hfind {entry : Entry} (hentry : entry ∈ rules ++ terminals) :
      SymbolTable.find? ⟨rules ++ terminals, imports⟩ entry.identifier = some entry :=
    (SymbolTable.find?_eq_some_iff hdistinct).mpr ⟨hentry, rfl⟩
  funext identifier
  -- the identifier is a rule's, else a terminal's, else of no entry at all
  unfold SymbolTable.kind kindNamed
  by_cases hrule : ∃ rule ∈ rules, rule.identifier = identifier
  · rw [if_pos hrule]
    obtain ⟨rule, hmem, rfl⟩ := hrule
    rw [hfind (List.mem_append_left _ hmem)]
    dsimp only
    rw [hrules rule hmem]
    rfl
  rw [if_neg hrule]
  by_cases hterminal : ∃ terminal ∈ terminals, terminal.identifier = identifier
  · rw [if_pos hterminal]
    obtain ⟨terminal, hmem, rfl⟩ := hterminal
    rw [hfind (List.mem_append_right _ hmem)]
    dsimp only
    cases hkind : terminal.kind with
    | rule => exact absurd hkind (hterminals terminal hmem)
    | terminal isFragment => rfl
  · rw [if_neg hterminal]
    have hnone : SymbolTable.find? ⟨rules ++ terminals, imports⟩ identifier = none := by
      rw [SymbolTable.find?_eq_none_iff, List.mem_map]
      rintro ⟨entry, hentry, heq⟩
      rcases List.mem_append.mp hentry with hmem | hmem
      · exact hrule ⟨entry, hmem, heq⟩
      · exact hterminal ⟨entry, hmem, heq⟩
    rw [hnone]

/-- The grammar of consistent entries, with the kinds that their symbol table gives. -/
theorem resolved_eq_of_consistent {name documentation : String} {rules terminals : List Listing}
    {imports : List String} (h : Consistent rules terminals imports) :
    let table : SymbolTable := ⟨entriesOf rules ++ entriesOf terminals, imports⟩
    let rules' := (entriesOf rules).map (Entry.withKinds table.kind)
    let terminals' := (entriesOf terminals).map (Entry.withKinds table.kind)
    resolved name rules terminals documentation imports =
      ⟨name, documentation, rules', terminals', ⟨rules' ++ terminals', imports⟩⟩ := by
  dsimp only
  rw [kind_eq_kindNamed imports (forall_mem_entriesOf h.rules_only)
    (forall_mem_entriesOf h.terminals_only) h.distinct]
  rfl

/-! ### Building -/

section admits

variable {rules terminals : List Listing} {imports : List String}

/-- The listed entries are all admitted iff they are closed, defined and terminals closed in
themselves. -/
theorem forall_admits_iff
    (hrules : ∀ rule ∈ entriesOf rules, rule.kind = .rule)
    (hterminals : ∀ terminal ∈ entriesOf terminals, terminal.kind ≠ .rule)
    (hdistinct : ((entriesOf rules ++ entriesOf terminals).map (·.identifier)).Nodup) :
    (∀ entry ∈ entriesOf rules ++ entriesOf terminals, ∀ x ∈ entry.walk,
        SymbolTable.Admits ⟨entriesOf rules ++ entriesOf terminals, imports⟩ entry x) ↔
      (∀ entry ∈ entriesOf rules ++ entriesOf terminals, ∀ name, .foreign name ∉ entry.walk) ∧
      (∀ entry ∈ entriesOf rules ++ entriesOf terminals, ∀ identifier kind,
        .reference identifier kind ∈ entry.walk →
          (∃ target ∈ entriesOf rules ++ entriesOf terminals, target.identifier = identifier) ∨
            identifier ∈ imports) ∧
      ∀ terminal ∈ entriesOf terminals, ∀ identifier kind,
        .reference identifier kind ∈ terminal.walk →
          ∀ rule ∈ entriesOf rules, rule.identifier ≠ identifier := by
  have hreference (owner : Entry) (identifier : String) (kind : Option SymbolKind) :=
    @SymbolTable.admits_reference_iff ⟨entriesOf rules ++ entriesOf terminals, imports⟩ hdistinct
      owner identifier kind
  constructor
  · intro h
    refine ⟨fun entry hentry name hname => h entry hentry _ hname,
      fun entry hentry identifier kind hmem => ((hreference ..).mp (h entry hentry _ hmem)).1, ?_⟩
    intro terminal hterminal identifier kind hmem rule hrule heq
    have hkind := EntryKind.isRule_eq_false_iff.mpr (hterminals terminal hterminal)
    have hnot := ((hreference ..).mp
      (h terminal (List.mem_append_right _ hterminal) _ hmem)).2 hkind
      rule (List.mem_append_left _ hrule) heq
    exact EntryKind.isRule_eq_false_iff.mp hnot (hrules rule hrule)
  · rintro ⟨hclosed, hdefined, hstratified⟩ entry hentry x hx
    cases x with
    | foreign name => exact hclosed entry hentry name hx
    | reference identifier kind =>
      refine (hreference ..).mpr ⟨hdefined entry hentry identifier kind hx, ?_⟩
      intro hterminal target htarget heq
      -- only the rules are in question, and only from a terminal
      rcases List.mem_append.mp htarget with htarget | htarget
      · rcases List.mem_append.mp hentry with hentry | hentry
        · exact absurd (hrules entry hentry) (EntryKind.isRule_eq_false_iff.mp hterminal)
        · exact absurd heq (hstratified entry hentry identifier kind hx target htarget)
      · exact EntryKind.isRule_eq_false_iff.mpr (hterminals target htarget)
    | _ => trivial

end admits

theorem assemble_eq_ok_iff {name documentation : String} {rules terminals : List Listing}
    {imports : List String} {g : Grammar}
    (hnormal : ∀ entry ∈ entriesOf rules ++ entriesOf terminals, entry.Normal) :
    assemble name rules terminals documentation imports = .ok g ↔
      Consistent rules terminals imports ∧
        g = resolved name rules terminals documentation imports := by
  rw [List.forall_mem_append] at hnormal
  have hresolve (table : SymbolTable) (listings : List Listing)
      (h : ∀ entry ∈ entriesOf listings, entry.Normal) :=
    mapM_eq_ok_iff_of_forall fun entry hentry _ => table.resolveEntry_eq_ok_iff (h entry hentry)
  have hidentifiers (kind : String → SymbolKind) (entries : List Entry) :
      (entries.map (Entry.withKinds kind)).map (·.identifier) = entries.map (·.identifier) := by
    rw [List.map_map]
    rfl
  simp only [assemble, bind_eq_ok_iff, pure_eq_ok_iff, rulesOf_eq_ok_iff, terminalsOf_eq_ok_iff,
    SymbolTable.defineAll_empty_eq_ok_iff]
  constructor
  · rintro ⟨_, ⟨hrules, rfl⟩, _, ⟨hterminals, rfl⟩, _, ⟨hdistinct, rfl⟩, _, hresolved,
      _, hresolved', _, ⟨-, rfl⟩, rfl⟩
    obtain ⟨hadmits, rfl⟩ := (hresolve _ rules hnormal.1 _).mp hresolved
    obtain ⟨hadmits', rfl⟩ := (hresolve _ terminals hnormal.2 _).mp hresolved'
    obtain ⟨hclosed, hdefined, hstratified⟩ :=
      (forall_admits_iff (forall_mem_entriesOf hrules) (forall_mem_entriesOf hterminals)
        hdistinct).mp (List.forall_mem_append.mpr ⟨hadmits, hadmits'⟩)
    have hconsistent : Consistent rules terminals imports :=
      ⟨hrules, hterminals, hdistinct, hclosed, hdefined, hstratified⟩
    exact ⟨hconsistent, (resolved_eq_of_consistent hconsistent).symm⟩
  · rintro ⟨hconsistent, rfl⟩
    rw [resolved_eq_of_consistent hconsistent]
    obtain ⟨hrules, hterminals, hdistinct, hclosed, hdefined, hstratified⟩ := hconsistent
    obtain ⟨hadmits, hadmits'⟩ := List.forall_mem_append.mp
      ((forall_admits_iff (forall_mem_entriesOf hrules) (forall_mem_entriesOf hterminals)
        hdistinct).mpr ⟨hclosed, hdefined, hstratified⟩)
    refine ⟨_, ⟨hrules, rfl⟩, _, ⟨hterminals, rfl⟩, _, ⟨hdistinct, rfl⟩,
      _, (hresolve _ rules hnormal.1 _).mpr ⟨hadmits, rfl⟩,
      _, (hresolve _ terminals hnormal.2 _).mpr ⟨hadmits', rfl⟩, _, ⟨?_, rfl⟩, rfl⟩
    -- the resolved entries are defined anew, under the same identifiers
    rw [← List.map_append, hidentifiers]
    exact hdistinct

/-- A grammar is built from listed entries, each as it was built, iff they are consistent; it has
the same entries, and what is new is the kind of each reference. -/
theorem build_eq_ok_iff_consistent {name documentation : String} {rules terminals : List Listing}
    {imports : List String} {g : Grammar}
    (hbuilt : ∀ entry, .entry entry ∈ rules ++ terminals →
      ∃ node : EntryNode, node.build = .ok entry) :
    build name rules terminals documentation imports = .ok g ↔
      Consistent rules terminals imports ∧
        g = resolved name rules terminals documentation imports := by
  rw [build, mapError_eq_ok_iff]
  refine assemble_eq_ok_iff fun entry hentry => ?_
  rw [List.mem_append, mem_entriesOf, mem_entriesOf, ← List.mem_append] at hentry
  obtain ⟨node, hnode⟩ := hbuilt entry hentry
  exact EntryNode.normal_of_build hnode

/-- A rule that refers to itself, to terminals and to something imported, some of it by kinds that
do not fit. -/
def sampleRules : List Listing :=
  [.entry ⟨.rule, "list", "Items.",
    [[.reference "ITEM" (some .external),
        .quantified (.sequence [.literal ",", .reference "list" (some .terminal)]) .star],
      [.alternation [.sequence [.reference "other" none], .sequence [.reference "DIGIT" none]]]]⟩]

/-- The terminals that it refers to, of which one is a fragment. -/
def sampleTerminals : List Listing :=
  [.entry ⟨.terminal false, "ITEM", "", [[.reference "DIGIT" (some .rule), .reference "ext" none]]⟩,
    .entry ⟨.terminal true, "DIGIT", "", [[.literal "0"], []]⟩]

/-- A terminal that hides an import is a terminal for the rule, and what no entry defines is
external. -/
theorem build_sample :
    (∀ entry, .entry entry ∈ sampleRules ++ sampleTerminals →
        ∃ node : EntryNode, node.build = .ok entry) ∧
      Consistent sampleRules sampleTerminals ["ITEM", "other", "ext"] ∧
      build "Lists" sampleRules sampleTerminals "All lists." ["ITEM", "other", "ext"] =
        .ok (resolved "Lists" sampleRules sampleTerminals "All lists." ["ITEM", "other", "ext"]) ∧
      (resolved "Lists" sampleRules sampleTerminals "All lists." ["ITEM", "other", "ext"]).rules =
        [⟨.rule, "list", "Items.",
          [[.reference "ITEM" (some .terminal),
              .quantified (.sequence [.literal ",", .reference "list" (some .rule)]) .star],
            [.alternation [.sequence [.reference "other" (some .external)],
              .sequence [.reference "DIGIT" (some .terminal)]]]]⟩] ∧
      (resolved "Lists" sampleRules sampleTerminals "All lists."
          ["ITEM", "other", "ext"]).terminals =
        [⟨.terminal false, "ITEM", "", [[.reference "DIGIT" (some .terminal),
            .reference "ext" (some .external)]]⟩,
          ⟨.terminal true, "DIGIT", "", [[.literal "0"], []]⟩] := by
  have hbuilt : ∀ entry, .entry entry ∈ sampleRules ++ sampleTerminals →
      ∃ node : EntryNode, node.build = .ok entry := by
    intro entry hentry
    simp only [sampleRules, sampleTerminals, List.cons_append, List.nil_append, List.mem_cons,
      Listing.entry.injEq, List.not_mem_nil, or_false] at hentry
    rcases hentry with rfl | rfl | rfl
    · exact ⟨⟨.rule, "list", "Items.",
        [[.reference "ITEM" (some .external),
            .quantified (.sequence [.datum (.text ","), .reference "list" (some .terminal)]) .star],
          [.alternation [.reference "other" none, .reference "DIGIT" none]]]⟩, rfl⟩
    · exact ⟨⟨.terminal false, "ITEM", "",
        [[.reference "DIGIT" (some .rule), .reference "ext" none]]⟩, rfl⟩
    · exact ⟨⟨.terminal true, "DIGIT", "", [[.datum (.text "0")], []]⟩, rfl⟩
  have hbuild : build "Lists" sampleRules sampleTerminals "All lists." ["ITEM", "other", "ext"] =
    .ok _ := rfl
  obtain ⟨hconsistent, hresolved⟩ := (build_eq_ok_iff_consistent hbuilt).mp hbuild
  refine ⟨hbuilt, hconsistent, (build_eq_ok_iff_consistent hbuilt).mpr ⟨hconsistent, rfl⟩, ?_⟩
  rw [← hresolved]
  exact ⟨rfl, rfl⟩

end Grammar

end SyntaxDiagram
