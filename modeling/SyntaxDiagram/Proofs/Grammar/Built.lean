import SyntaxDiagram.Proofs.Grammar

/-!
# Grammars that were built

What every grammar from `Grammar.build` has: its rules are rules and its terminals are terminals, no
two of its entries share an identifier (`Built.nodup_identifiers`), and each reference carries the
kind of the entry that it names, or is external (`Built.kind_of_mem_references`).
-/

namespace SyntaxDiagram

namespace Element

variable {kind : String → SymbolKind}

/-- The references of an element with new kinds are its own ones, with these kinds. -/
theorem references_withKinds (element : Element) :
    (element.withKinds kind).references =
      element.references.map fun reference => (reference.1, some (kind reference.1)) := by
  induction element with
  | literal text => rfl
  | reference identifier kind' => rfl
  | sequence items ih =>
    simp only [references, withKinds, walk, withKindsList_eq_map, walkList_eq_flatMap,
      List.filterMap_cons, reference?, List.flatMap_map, List.filterMap_flatMap,
      List.map_flatMap] at ih ⊢
    exact List.flatMap_congr ih
  | alternation branches ih =>
    simp only [references, withKinds, walk, withKindsList_eq_map, walkList_eq_flatMap,
      List.filterMap_cons, reference?, List.flatMap_map, List.filterMap_flatMap,
      List.map_flatMap] at ih ⊢
    exact List.flatMap_congr ih
  | quantified item quantifier ih => exact ih
  | foreign name => rfl

end Element

namespace Entry

theorem mem_references_iff {entry : Entry} {identifier : String} {kind : Option SymbolKind} :
    (identifier, kind) ∈ entry.references ↔ .reference identifier kind ∈ entry.walk := by
  rw [references, List.mem_filterMap]
  constructor
  · rintro ⟨element, helement, hreference⟩
    cases element with
    | reference identifier' kind' =>
      obtain ⟨rfl, rfl⟩ := Prod.mk.inj (Option.some.inj hreference)
      exact helement
    | _ => exact absurd hreference (by simp [Element.reference?])
  · intro helement
    exact ⟨_, helement, rfl⟩

theorem references_eq_flatMap (entry : Entry) :
    entry.references = entry.alternatives.flatMap fun alternative =>
      alternative.flatMap Element.references := by
  simp only [references, walk, Element.walkList_eq_flatMap, List.filterMap_flatMap]
  rfl

theorem references_withKinds (kind : String → SymbolKind) (entry : Entry) :
    (entry.withKinds kind).references =
      entry.references.map fun reference => (reference.1, some (kind reference.1)) := by
  simp only [references_eq_flatMap, withKinds, List.flatMap_map, List.map_flatMap,
    Element.references_withKinds]

end Entry

namespace Grammar

/-- The grammar was built from listed entries, each as it was built. -/
def Built (g : Grammar) : Prop :=
  ∃ name documentation rules terminals imports,
    (∀ entry, .entry entry ∈ rules ++ terminals → ∃ node : EntryNode, node.build = .ok entry) ∧
      build name rules terminals documentation imports = .ok g

variable {g : Grammar}

/-- What a grammar that was built is made of is consistent, and it has every kind resolved. -/
theorem consistent_of_build {name documentation : String} {rules terminals : List Listing}
    {imports : List String}
    (hbuilt : ∀ entry, .entry entry ∈ rules ++ terminals →
      ∃ node : EntryNode, node.build = .ok entry)
    (hbuild : build name rules terminals documentation imports = .ok g) :
    Consistent rules terminals imports ∧
      g = resolved name rules terminals documentation imports := by
  refine (assemble_eq_ok_iff fun entry hentry => ?_).mp (mapError_eq_ok_iff.mp hbuild)
  rw [List.mem_append, mem_entriesOf, mem_entriesOf, ← List.mem_append] at hentry
  obtain ⟨node, hnode⟩ := hbuilt entry hentry
  exact EntryNode.normal_of_build hnode

/-- A built grammar is the resolved one of listings that are consistent. -/
theorem Built.exists_consistent (h : g.Built) :
    ∃ name documentation rules terminals imports, Consistent rules terminals imports ∧
      g = resolved name rules terminals documentation imports := by
  obtain ⟨name, documentation, rules, terminals, imports, hbuilt, hbuild⟩ := h
  exact ⟨name, documentation, rules, terminals, imports, consistent_of_build hbuilt hbuild⟩

/-! ### Entries -/

/-- The rules of a grammar that was built are rules. -/
theorem Built.kind_of_mem_rules (h : g.Built) {entry : Entry} (hentry : entry ∈ g.rules) :
    entry.kind = .rule := by
  obtain ⟨_, _, rules, _, _, hconsistent, rfl⟩ := h.exists_consistent
  obtain ⟨source, hsource, rfl⟩ := List.mem_map.mp hentry
  exact forall_mem_entriesOf hconsistent.rules_only source hsource

/-- No two entries have the same identifier. -/
theorem Built.nodup_identifiers (h : g.Built) : (g.entries.map (·.identifier)).Nodup := by
  obtain ⟨_, _, rules, terminals, imports, hconsistent, rfl⟩ := h.exists_consistent
  have hidentifiers (kind : String → SymbolKind) (entries : List Entry) :
      (entries.map (Entry.withKinds kind)).map (·.identifier) = entries.map (·.identifier) := by
    rw [List.map_map]
    rfl
  rw [entries, resolved, ← List.map_append, hidentifiers]
  exact hconsistent.distinct

/-- No two entries of a built grammar share an identifier. -/
theorem Built.eq_of_identifier_eq (h : g.Built) {a b : Entry} (ha : a ∈ g.entries)
    (hb : b ∈ g.entries) (heq : a.identifier = b.identifier) : a = b :=
  List.inj_on_of_nodup_map h.nodup_identifiers ha hb heq

/-! ### Entries with a diagram -/

/-- An entry has a diagram iff it is not a fragment. -/
theorem Built.mem_diagramEntries_iff (h : g.Built) {entry : Entry} :
    entry ∈ g.diagramEntries ↔ entry ∈ g.entries ∧ entry.kind.isFragment = false := by
  rw [diagramEntries, entries, List.mem_append, List.mem_append, List.mem_filter,
    Bool.not_eq_true']
  constructor
  · rintro (hrule | ⟨hterminal, hfragment⟩)
    · refine ⟨Or.inl hrule, ?_⟩
      rw [h.kind_of_mem_rules hrule]
      rfl
    · exact ⟨Or.inr hterminal, hfragment⟩
  · rintro ⟨hrule | hterminal, hfragment⟩
    · exact Or.inl hrule
    · exact Or.inr ⟨hterminal, hfragment⟩

theorem diagramEntries_sublist (g : Grammar) : g.diagramEntries.Sublist g.entries :=
  List.filter_sublist.append_left _

theorem Built.nodup_diagramIdentifiers (h : g.Built) :
    (g.diagramEntries.map (·.identifier)).Nodup :=
  h.nodup_identifiers.sublist (g.diagramEntries_sublist.map _)

/-! ### References -/

/-- A reference has the kind of the entry that it names, or is external and names no entry. -/
theorem Built.kind_of_mem_references (h : g.Built) {entry : Entry} (hentry : entry ∈ g.entries)
    {identifier : String} {kind : Option SymbolKind}
    (hreference : (identifier, kind) ∈ entry.references) :
    (∃ target ∈ g.entries, target.identifier = identifier ∧
        kind = some target.kind.symbolKind) ∨
      (∀ target ∈ g.entries, target.identifier ≠ identifier) ∧ kind = some .external := by
  obtain ⟨name, documentation, rules, terminals, imports, hconsistent, rfl⟩ := h.exists_consistent
  set table : SymbolTable := ⟨entriesOf rules ++ entriesOf terminals, imports⟩
  have hentries : (resolved name rules terminals documentation imports).entries =
      table.entries.map (Entry.withKinds table.kind) := by
    rw [resolved_eq_of_consistent hconsistent]
    exact List.map_append.symm
  rw [hentries] at hentry ⊢
  obtain ⟨source, -, rfl⟩ := List.mem_map.mp hentry
  rw [Entry.references_withKinds] at hreference
  obtain ⟨reference, -, heq⟩ := List.mem_map.mp hreference
  obtain ⟨rfl, rfl⟩ := Prod.mk.inj heq
  -- a reference has the kind of the entry it finds, and is external when it finds none
  rw [SymbolTable.kind]
  cases hfind : table.find? reference.1 with
  | none =>
    rw [SymbolTable.find?_eq_none_iff] at hfind
    refine Or.inr ⟨List.forall_mem_map.mpr fun target htarget heq => ?_, rfl⟩
    exact hfind (List.mem_map.mpr ⟨target, htarget, heq⟩)
  | some target =>
    obtain ⟨hmem, hidentifier⟩ := (SymbolTable.find?_eq_some_iff hconsistent.distinct).mp hfind
    exact Or.inl ⟨_, List.mem_map_of_mem hmem, hidentifier, rfl⟩

/-! ### An example -/

/-- A rule over a terminal, which is made of a fragment. -/
def sample : Grammar :=
  resolved "Sum" [.entry ⟨.rule, "sum", "", [[.reference "NUMBER" none, .literal "+"]]⟩]
    [.entry ⟨.terminal false, "NUMBER", "", [[.reference "DIGIT" none]]⟩,
      .entry ⟨.terminal true, "DIGIT", "", [[.literal "0"]]⟩] "" []

theorem built_sample : sample.Built := by
  refine ⟨_, _, _, _, _, ?_,
    (rfl : build "Sum" [.entry ⟨.rule, "sum", "", [[.reference "NUMBER" none, .literal "+"]]⟩]
      [.entry ⟨.terminal false, "NUMBER", "", [[.reference "DIGIT" none]]⟩,
        .entry ⟨.terminal true, "DIGIT", "", [[.literal "0"]]⟩] "" [] = .ok sample)⟩
  intro entry hentry
  simp only [List.cons_append, List.nil_append, List.mem_cons, Listing.entry.injEq,
    List.not_mem_nil, or_false] at hentry
  rcases hentry with rfl | rfl | rfl
  · exact ⟨⟨.rule, "sum", "", [[.reference "NUMBER" none, .literal "+"]]⟩, rfl⟩
  · exact ⟨⟨.terminal false, "NUMBER", "", [[.reference "DIGIT" none]]⟩, rfl⟩
  · exact ⟨⟨.terminal true, "DIGIT", "", [[.literal "0"]]⟩, rfl⟩

end Grammar

end SyntaxDiagram
