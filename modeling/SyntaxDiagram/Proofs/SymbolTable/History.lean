import SyntaxDiagram.Proofs.Grammar.Built

/-!
# The history of a symbol table

A symbol table is asked and changed by one operation after the other.  It changes by a successful
definition only, which adds an entry under a new identifier (`SymbolTable.perform_cases`); so an
entry that is found stays the one that is found (`find?_after`), and what an identifier names can
change in one way only, when an import is defined (`kindOf?_after`).  That is all that another
resolution of an entry can show (`resolveEntry_after`).
-/

namespace SyntaxDiagram

/-- An operation on a symbol table. -/
inductive Operation where
  | define (entry : Entry)
  | lookup (identifier : String)
  | kindOf (identifier : String)
  | resolveEntry (entry : Entry)
  | contains (identifier : String)

/-- The entry that an operation is to define. -/
def Operation.proposed? : Operation → Option Entry
  | .define entry => some entry
  | _ => none

/-- What a symbol table answers. -/
inductive Answer where
  | entry (value : Entry)
  | kind (value : SymbolKind)
  | truth (value : Bool)

/-- The entry that was defined by an operation with its answer. -/
def defined? : Operation × Except GrammarError Answer → Option Entry
  | (.define entry, .ok _) => some entry
  | _ => none

namespace SymbolTable

/-! ### Operations in a row -/

/-- The answer to an operation, and the table after it. -/
def perform (table : SymbolTable) : Operation → Except GrammarError Answer × SymbolTable
  | .define entry =>
    match table.define entry with
    | .ok extended => (.ok (.entry entry), extended)
    | .error error => (.error error, table)
  | .lookup identifier => ((table.lookup identifier).map .entry, table)
  | .kindOf identifier => ((table.kindOf identifier).map .kind, table)
  | .resolveEntry entry => ((table.resolveEntry entry).map .entry, table)
  | .contains identifier => (.ok (.truth (table.contains identifier)), table)

/-- The table after some operations. -/
def after (table : SymbolTable) (operations : List Operation) : SymbolTable :=
  operations.foldl (fun table operation => (table.perform operation).2) table

/-- Some operations, each with its answer. -/
def log (table : SymbolTable) : List Operation → List (Operation × Except GrammarError Answer)
  | [] => []
  | operation :: rest =>
    (operation, (table.perform operation).1) :: log (table.perform operation).2 rest

/-- The entries that are defined by some operations, in order. -/
def added (table : SymbolTable) (operations : List Operation) : List Entry :=
  (table.log operations).filterMap defined?

variable {table : SymbolTable} {operations : List Operation} {identifier : String}

theorem after_append (before later : List Operation) :
    table.after (before ++ later) = (table.after before).after later :=
  List.foldl_append

/-! ### What an operation changes -/

/-- An operation defines a new entry, or it leaves the table as it is. -/
theorem perform_cases (table : SymbolTable) (operation : Operation) :
    (∃ entry, operation = .define entry ∧ table.find? entry.identifier = none ∧
      table.perform operation =
        (.ok (.entry entry), { table with entries := table.entries ++ [entry] })) ∨
    defined? (operation, (table.perform operation).1) = none ∧
      (table.perform operation).2 = table := by
  cases operation with
  | define entry =>
    cases hdefine : table.define entry with
    | ok extended =>
      obtain ⟨hfind, rfl⟩ := define_eq_ok_iff.mp hdefine
      exact Or.inl ⟨entry, rfl, hfind, by rw [perform, hdefine]⟩
    | error error =>
      rw [perform, hdefine]
      exact Or.inr ⟨rfl, rfl⟩
  | _ => exact Or.inr ⟨rfl, rfl⟩

/-- An entry that is not defined is so because there is one of its identifier. -/
theorem exists_find?_of_not_defined {entry : Entry}
    (h : defined? (.define entry, (table.perform (.define entry)).1) = none) :
    ∃ earlier, table.find? entry.identifier = some earlier := by
  cases hdefine : table.define entry with
  | ok extended =>
    rw [perform, hdefine] at h
    cases h
  | error error =>
    obtain ⟨earlier, hearlier, -⟩ := define_eq_error_iff.mp hdefine
    exact ⟨earlier, hearlier⟩

/-! ### What operations in a row change -/

theorem imports_after (table : SymbolTable) (operations : List Operation) :
    (table.after operations).imports = table.imports := by
  induction operations generalizing table with
  | nil => rfl
  | cons operation rest ih =>
    rw [after, List.foldl_cons, ← after, ih]
    rcases table.perform_cases operation with ⟨entry, -, -, hperform⟩ | ⟨-, hsame⟩
    · rw [hperform]
    · rw [hsame]

/-- Operations only add entries, behind those that are there. -/
theorem entries_after (table : SymbolTable) (operations : List Operation) :
    (table.after operations).entries = table.entries ++ table.added operations := by
  induction operations generalizing table with
  | nil => exact (List.append_nil _).symm
  | cons operation rest ih =>
    rw [after, List.foldl_cons, ← after, ih, added, added, log, List.filterMap_cons]
    rcases table.perform_cases operation with ⟨entry, rfl, -, hperform⟩ | ⟨hnone, hsame⟩
    · rw [hperform, defined?, List.append_assoc, List.singleton_append]
    · rw [hnone, hsame]

/-- Identifiers stay distinct through all operations. -/
theorem nodup_after (h : (table.entries.map (·.identifier)).Nodup) (operations : List Operation) :
    ((table.after operations).entries.map (·.identifier)).Nodup := by
  induction operations generalizing table with
  | nil => exact h
  | cons operation rest ih =>
    rw [after, List.foldl_cons, ← after]
    refine ih ?_
    rcases table.perform_cases operation with ⟨entry, -, hfind, hperform⟩ | ⟨-, hsame⟩
    · rw [hperform, List.map_append, List.map_singleton, ← List.concat_eq_append]
      exact h.concat (find?_eq_none_iff.mp hfind)
    · rw [hsame]
      exact h

/-- The entry of an identifier is the first that operations are to define. -/
theorem find?_after (table : SymbolTable) (operations : List Operation) (identifier : String) :
    (table.after operations).find? identifier = (table.find? identifier).or
      ((operations.filterMap Operation.proposed?).find? (·.identifier == identifier)) := by
  induction operations generalizing table with
  | nil => exact Option.or_none.symm
  | cons operation rest ih =>
    rw [after, List.foldl_cons, ← after, ih, List.filterMap_cons]
    rcases table.perform_cases operation with ⟨entry, rfl, -, hperform⟩ | ⟨hnone, hsame⟩
    · have hfind : find? { table with entries := table.entries ++ [entry] } identifier =
          (table.find? identifier).or ([entry].find? (·.identifier == identifier)) :=
        List.find?_append
      rw [hperform, hfind, Option.or_assoc, ← List.find?_append, Operation.proposed?,
        List.singleton_append]
    · rw [hsame]
      cases operation with
      | define entry =>
        -- the identifier is taken, so that nothing is found which was not before
        obtain ⟨earlier, hearlier⟩ := exists_find?_of_not_defined hnone
        rw [Operation.proposed?, List.find?_cons]
        by_cases heq : entry.identifier = identifier
        · rw [← heq, hearlier]
          rfl
        · rw [beq_false_of_ne heq]
      | _ => rfl

/-- An entry that is found is found ever after. -/
theorem find?_after_of_eq_some {entry : Entry} (h : table.find? identifier = some entry)
    (operations : List Operation) : (table.after operations).find? identifier = some entry := by
  rw [find?_after, h]
  rfl

/-! ### What identifiers name -/

theorem exists_find?_of_kindOf? {kind : SymbolKind} (h : table.kindOf? identifier = some kind)
    (hkind : kind ≠ .external) :
    ∃ entry, table.find? identifier = some entry ∧ entry.kind.symbolKind = kind := by
  rw [kindOf?] at h
  cases hfind : table.find? identifier with
  | some entry =>
    rw [hfind] at h
    exact ⟨entry, rfl, Option.some.inj h⟩
  | none =>
    rw [hfind] at h
    by_cases himport : table.imports.contains identifier = true
    · rw [if_pos himport] at h
      exact absurd (Option.some.inj h).symm hkind
    · rw [if_neg himport] at h
      cases h

/-- What is found has the kind of its entry, also where the identifier is imported. -/
theorem kindOf?_of_find? {entry : Entry} (h : table.find? identifier = some entry) :
    table.kindOf? identifier = some entry.kind.symbolKind := by
  rw [kindOf?, h]

/-- What an identifier names stays the same, unless it was an import and is defined since. -/
theorem kindOf?_after {kind : SymbolKind} (h : table.kindOf? identifier = some kind)
    (operations : List Operation) :
    (table.after operations).kindOf? identifier = some kind ∨
      kind = .external ∧ identifier ∈ table.imports ∧
        ∃ target ∈ table.added operations, target.identifier = identifier ∧
          (table.after operations).kindOf? identifier = some target.kind.symbolKind := by
  cases hfind : table.find? identifier with
  | some entry =>
    -- an entry that is found stays the one that is found
    rw [kindOf?_of_find? hfind] at h
    rw [kindOf?_of_find? (find?_after_of_eq_some hfind operations), h]
    exact Or.inl rfl
  | none =>
    -- what no entry defines can only be imported
    have hmem : identifier ∈ table.imports ∧ kind = .external := by
      rw [kindOf?, hfind] at h
      by_cases himport : table.imports.contains identifier = true
      · rw [if_pos himport] at h
        exact ⟨List.contains_iff_mem.mp himport, (Option.some.inj h).symm⟩
      · rw [if_neg himport] at h
        cases h
    -- from now on it is looked for among what is added
    have hsplit : (table.after operations).find? identifier =
        (table.added operations).find? (·.identifier == identifier) := by
      rw [find?, entries_after, List.find?_append, ← find?, hfind, Option.none_or]
    cases hadded : (table.added operations).find? (·.identifier == identifier) with
    | some target =>
      rw [hadded] at hsplit
      refine Or.inr ⟨hmem.2, hmem.1, target, List.mem_of_find?_eq_some hadded, ?_,
        kindOf?_of_find? hsplit⟩
      simpa using List.find?_some hadded
    | none =>
      rw [hadded] at hsplit
      refine Or.inl ?_
      rw [kindOf?, hsplit, imports_after, hmem.2]
      exact if_pos (List.contains_iff_mem.mpr hmem.1)

/-! ### Resolving later -/

/-- A reference of an entry that was resolved later carries what it named when the entry was
resolved, or it was external then and what it names is defined since. -/
theorem kind_after_of_mem_references {entry : Entry}
    (hadmits : ∀ x ∈ entry.walk, table.Admits entry x) (operations : List Operation)
    {kind : Option SymbolKind}
    (hreference : (identifier, kind) ∈ (entry.withKinds table.kind).references) :
    kind = some ((table.after operations).kind identifier) ∨
      kind = some .external ∧ identifier ∈ table.imports ∧
        ∃ target ∈ table.added operations, target.identifier = identifier ∧
          (table.after operations).kind identifier = target.kind.symbolKind := by
  rw [Entry.references_withKinds, List.mem_map] at hreference
  obtain ⟨⟨identifier', kind'⟩, hmem, heq⟩ := hreference
  obtain ⟨rfl, rfl⟩ := Prod.mk.inj heq
  obtain ⟨earlier, hearlier, -⟩ := hadmits _ (Entry.mem_references_iff.mp hmem)
  rw [kind_of_kindOf?_eq_some hearlier]
  rcases kindOf?_after hearlier operations with hsame | ⟨rfl, himport, target, htarget, hid, hkind⟩
  · exact Or.inl (by rw [kind_of_kindOf?_eq_some hsame])
  · exact Or.inr ⟨rfl, himport, target, htarget, hid, kind_of_kindOf?_eq_some hkind⟩

/-- What is refused later and was admitted before is a reference of a terminal to an import that is
defined as a rule since. -/
theorem exists_rule_of_refusal? {owner : Entry} {x : Element} {error : GrammarError}
    (hadmits : table.Admits owner x) (operations : List Operation)
    (h : (table.after operations).refusal? owner x = some error) :
    owner.kind.isRule = false ∧ ∃ rule ∈ table.added operations, rule.kind.isRule = true ∧
      rule.identifier ∈ table.imports ∧ (∃ kind, x = .reference rule.identifier kind) ∧
      error = .about owner.identifier (.terminalReferencesRule rule.identifier) := by
  cases x with
  | reference identifier kind =>
    obtain ⟨earlier, hearlier, howner⟩ := hadmits
    rw [refusal?, error?_eq_some_iff, resolveReference_eq_error_iff] at h
    rcases kindOf?_after hearlier operations with hsame | ⟨-, himport, rule, hrule, rfl, hkind⟩
    · -- it names what it named when it was admitted
      rcases h with ⟨hnone, -⟩ | ⟨hrule, hterminal, -⟩
      · rw [hsame] at hnone
        cases hnone
      · rw [hsame] at hrule
        exact absurd (Option.some.inj hrule) (howner hterminal)
    · rcases h with ⟨hnone, -⟩ | ⟨hnamed, hterminal, rfl⟩
      · rw [hkind] at hnone
        cases hnone
      · rw [hkind] at hnamed
        have hisRule : rule.kind.isRule = true := by
          cases hentry : rule.kind with
          | rule => rfl
          | terminal isFragment =>
            rw [hentry] at hnamed
            cases hnamed
        exact ⟨hterminal, rule, hrule, hisRule, himport, ⟨kind, rfl⟩, rfl⟩
  | foreign name => exact absurd hadmits id
  | _ => cases h

/-- An entry that was resolved is resolved later into the same tree, with new kinds for references
to imports that are defined since, or it is a terminal that refers to such an import, which is a
rule. -/
theorem resolveEntry_after {entry entry' : Entry} (hnormal : entry.Normal)
    (h : table.resolveEntry entry = .ok entry') (operations : List Operation) :
    (∃ kinds, (table.after operations).resolveEntry entry = .ok (entry'.withKinds kinds) ∧
      ∀ identifier kind, (identifier, kind) ∈ entry'.references →
        kind = some (kinds identifier) ∨
          kind = some .external ∧ identifier ∈ table.imports ∧
            ∃ target ∈ table.added operations, target.identifier = identifier ∧
              kinds identifier = target.kind.symbolKind) ∨
    entry.kind.isRule = false ∧ ∃ rule ∈ table.added operations, rule.kind.isRule = true ∧
      rule.identifier ∈ table.imports ∧ (∃ kind, (rule.identifier, kind) ∈ entry.references) ∧
      (table.after operations).resolveEntry entry =
        .error (.about entry.identifier (.terminalReferencesRule rule.identifier)) := by
  obtain ⟨hadmits, rfl⟩ := (resolveEntry_eq_ok_iff hnormal).mp h
  cases hlater : (table.after operations).resolveEntry entry with
  | ok entry'' =>
    obtain ⟨-, rfl⟩ := (resolveEntry_eq_ok_iff hnormal).mp hlater
    refine Or.inl ⟨(table.after operations).kind, ?_, fun identifier kind hreference =>
      kind_after_of_mem_references hadmits operations hreference⟩
    rw [Entry.withKinds_withKinds]
  | error error =>
    have hrefused : error? ((table.after operations).resolveEntry entry) = _ :=
      error?_resolveEntry hnormal
    rw [hlater, error?_error] at hrefused
    obtain ⟨x, hx, hrefusal⟩ := List.exists_of_findSome?_eq_some hrefused.symm
    obtain ⟨hterminal, rule, hrule, hisRule, himport, ⟨kind, rfl⟩, rfl⟩ :=
      exists_rule_of_refusal? (hadmits x hx) operations hrefusal
    exact Or.inr ⟨hterminal, rule, hrule, hisRule, himport,
      ⟨kind, Entry.mem_references_iff.mpr hx⟩, rfl⟩

/-! ### The life of a table -/

/-- The table of some imports after some operations. -/
def ofOperations (imports : List String) (operations : List Operation) : SymbolTable :=
  (empty imports).after operations

theorem ofOperations_append (imports : List String) (before later : List Operation) :
    ofOperations imports (before ++ later) = (ofOperations imports before).after later :=
  after_append before later

theorem perform_lookup (table : SymbolTable) (identifier : String) :
    (table.perform (.lookup identifier)).1 =
      match table.find? identifier with
      | some entry => .ok (.entry entry)
      | none => .error (.about identifier .undefinedSymbol) := by
  rw [perform, lookup]
  cases table.find? identifier <;> rfl

theorem perform_kindOf_eq_ok_iff {kind : SymbolKind} :
    (table.perform (.kindOf identifier)).1 = .ok (.kind kind) ↔
      table.kindOf? identifier = some kind := by
  rw [perform, kindOf]
  cases table.kindOf? identifier <;> simp [Except.map]

theorem perform_resolveEntry_eq_ok_iff {entry entry' : Entry} :
    (table.perform (.resolveEntry entry)).1 = .ok (.entry entry') ↔
      table.resolveEntry entry = .ok entry' := by
  rw [perform]
  cases table.resolveEntry entry <;> simp [Except.map]

/-- Whatever operations come one after the other, a symbol table has the entries of the successful
definitions among them, in order and under distinct identifiers, and nothing but a successful
definition changes it.  The entry under an identifier is always the first that was to be defined
under it, and an identifier that once names a rule or a terminal names one for ever.  An entry that
is resolved once is resolved ever after into the same tree, in which references to imports that are
defined since become those of rules or terminals, unless it is turned down as a terminal: one that
refers to something imported which is defined as a rule since. -/
theorem kinds_settle (imports : List String) :
    (∀ operations, (ofOperations imports operations).entries = (empty imports).added operations ∧
      ((ofOperations imports operations).entries.map (·.identifier)).Nodup) ∧
    (∀ before operation, (∀ entry answer, operation = .define entry →
        ((ofOperations imports before).perform operation).1 ≠ .ok answer) →
      ofOperations imports (before ++ [operation]) = ofOperations imports before) ∧
    (∀ operations identifier, ((ofOperations imports operations).perform (.lookup identifier)).1 =
      match (operations.filterMap Operation.proposed?).find? (·.identifier == identifier) with
      | some entry => .ok (.entry entry)
      | none => .error (.about identifier .undefinedSymbol)) ∧
    (∀ before later identifier kind, kind ≠ .external →
      ((ofOperations imports before).perform (.kindOf identifier)).1 = .ok (.kind kind) →
      ((ofOperations imports (before ++ later)).perform (.kindOf identifier)).1 =
        .ok (.kind kind)) ∧
    ∀ before later entry entry', (∃ node : EntryNode, node.build = .ok entry) →
      ((ofOperations imports before).perform (.resolveEntry entry)).1 = .ok (.entry entry') →
      (∃ kinds, ((ofOperations imports (before ++ later)).perform (.resolveEntry entry)).1 =
          .ok (.entry (entry'.withKinds kinds)) ∧
        ∀ identifier kind, (identifier, kind) ∈ entry'.references →
          kind = some (kinds identifier) ∨
            kind = some .external ∧ identifier ∈ imports ∧
              ∃ target ∈ (ofOperations imports before).added later,
                target.identifier = identifier ∧ kinds identifier = target.kind.symbolKind) ∨
      entry.kind.isRule = false ∧
        ∃ rule ∈ (ofOperations imports before).added later, rule.kind.isRule = true ∧
          rule.identifier ∈ imports ∧ (∃ kind, (rule.identifier, kind) ∈ entry.references) ∧
          ∃ error, ((ofOperations imports (before ++ later)).perform (.resolveEntry entry)).1 =
              .error error ∧
            error = .about entry.identifier (.terminalReferencesRule rule.identifier) ∧
            error.cause.errorClass = .invalidKind := by
  have hnodup : ((empty imports).entries.map (·.identifier)).Nodup := List.nodup_nil
  refine ⟨fun operations => ⟨entries_after _ operations, nodup_after hnodup operations⟩,
    fun before operation hfails => ?_, fun operations identifier => ?_,
    fun before later identifier kind hkind h => ?_,
    fun before later entry entry' hbuilt h => ?_⟩
  · -- only a definition changes a table, and this operation defines nothing
    rw [ofOperations_append]
    rcases (ofOperations imports before).perform_cases operation with
      ⟨entry, rfl, -, hperform⟩ | ⟨-, hsame⟩
    · exact absurd (congrArg Prod.fst hperform) (hfails entry _ rfl)
    · exact hsame
  · -- the first entry that is proposed under an identifier is the one that is defined
    have hfind : (ofOperations imports operations).find? identifier =
        (operations.filterMap Operation.proposed?).find? (·.identifier == identifier) :=
      find?_after _ operations identifier
    rw [perform_lookup, hfind]
  · -- a kind that is not external is that of an entry, which is found ever after
    rw [perform_kindOf_eq_ok_iff] at h ⊢
    obtain ⟨entry, hfind, rfl⟩ := exists_find?_of_kindOf? h hkind
    rw [ofOperations_append]
    exact kindOf?_of_find? (find?_after_of_eq_some hfind later)
  · -- what is resolved stays so, unless a terminal refers to an import that becomes a rule
    obtain ⟨node, hnode⟩ := hbuilt
    have himports : (ofOperations imports before).imports = imports := imports_after _ before
    have hlater := resolveEntry_after (EntryNode.normal_of_build hnode)
      (perform_resolveEntry_eq_ok_iff.mp h) later
    rw [himports] at hlater
    rw [ofOperations_append]
    rcases hlater with ⟨kinds, hresolve, hkinds⟩ | ⟨hterminal, rule, hrule, hisRule, himport,
      hreference, hresolve⟩
    · exact Or.inl ⟨kinds, perform_resolveEntry_eq_ok_iff.mpr hresolve, hkinds⟩
    · refine Or.inr ⟨hterminal, rule, hrule, hisRule, himport, hreference, _, ?_, rfl, rfl⟩
      rw [perform, hresolve]
      rfl

/-- A terminal that refers to an import. -/
def importer : Entry :=
  ⟨.terminal false, "DIGITS", "", [[.literal "#", .reference "digit" none]]⟩

/-- The import is defined as a rule after the terminal was resolved. -/
theorem kinds_settle_importer :
    ((ofOperations ["digit"] [.define importer]).perform (.resolveEntry importer)).1 =
        .ok (.entry (importer.withKinds fun _ => .external)) ∧
      (∀ later, (∀ rule ∈ (ofOperations ["digit"] [.define importer]).added later,
          rule.kind.isRule = false) →
        ∃ kinds, ((ofOperations ["digit"] (.define importer :: later)).perform
          (.resolveEntry importer)).1 = .ok (.entry (importer.withKinds kinds))) ∧
      ∃ error, ((ofOperations ["digit"] [.define importer,
          .define ⟨.rule, "digit", "", [[.literal "0"]]⟩]).perform
        (.resolveEntry importer)).1 = .error error := by
  have hresolve : ((ofOperations ["digit"] [.define importer]).perform (.resolveEntry importer)).1 =
      .ok (.entry (importer.withKinds fun _ => .external)) := rfl
  refine ⟨hresolve, fun later hlater => ?_, _, rfl⟩
  rcases (kinds_settle ["digit"]).2.2.2.2 [.define importer] later importer _
      ⟨⟨.terminal false, "DIGITS", "", [[.datum (.text "#"), .reference "digit" none]]⟩, rfl⟩
      hresolve with ⟨kinds, hkinds, -⟩ | ⟨-, rule, hrule, hisRule, -⟩
  · exact ⟨kinds, hkinds⟩
  · rw [hlater rule hrule] at hisRule
    cases hisRule

end SymbolTable

end SyntaxDiagram
