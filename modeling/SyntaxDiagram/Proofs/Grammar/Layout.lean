import SyntaxDiagram.Proofs.Box.Targets
import SyntaxDiagram.Proofs.Grammar.Built
import SyntaxDiagram.Proofs.Grammar.Resolved

/-!
# Resolution and layout

A resolved entry is laid out as the entry that it was made from: resolution changes the kinds of
references alone, and layout keeps these in the targets of rule boxes alone
(`Entry.layout_withKinds`).  So no box of a drawing is moved when its grammar is built, and where
the layout of the one fails, that of the other fails in the same way (`Grammar.layout_entry`).
-/

namespace SyntaxDiagram

namespace Grammar

variable {name documentation : String} {rules terminals : List Listing} {imports : List String}

/-- In a resolved grammar identifiers name what they do among the listed entries. -/
theorem kindOf?_symbols_resolved :
    (resolved name rules terminals documentation imports).symbols.kindOf? =
      SymbolTable.kindOf? ⟨entriesOf rules ++ entriesOf terminals, imports⟩ := by
  refine SymbolTable.kindOf?_congr rfl ?_
  rw [resolved, ← List.map_append, List.map_map]
  rfl

/-- A listed entry is found in the resolved grammar with the kind of every reference. -/
theorem entry_resolved (h : Consistent rules terminals imports) {entry : Entry}
    (hentry : entry ∈ entriesOf rules ++ entriesOf terminals) :
    (resolved name rules terminals documentation imports).entry entry.identifier =
      .ok (entry.withKinds (resolved name rules terminals documentation imports).symbols.kind) := by
  set g := resolved name rules terminals documentation imports
  have hkind : g.symbols.kind =
      SymbolTable.kind ⟨entriesOf rules ++ entriesOf terminals, imports⟩ :=
    SymbolTable.kind_congr kindOf?_symbols_resolved
  have hentries : g.symbols.entries =
      (entriesOf rules ++ entriesOf terminals).map (Entry.withKinds g.symbols.kind) := by
    rw [hkind, List.map_append]
    exact congrArg (·.symbols.entries) (@resolved_eq_of_consistent name documentation _ _ _ h)
  have hdistinct : (g.symbols.entries.map (·.identifier)).Nodup := by
    rw [hentries, List.map_map]
    exact h.distinct
  have hfind : g.symbols.find? entry.identifier = some (entry.withKinds g.symbols.kind) := by
    refine (SymbolTable.find?_eq_some_iff hdistinct).mpr ⟨?_, rfl⟩
    rw [hentries]
    exact List.mem_map_of_mem hentry
  rw [Grammar.entry, SymbolTable.lookup, hfind]
  rfl

/-- Whatever an entry refers to has a kind in the resolved grammar. -/
theorem kindOf_symbols_resolved (h : Consistent rules terminals imports) {entry : Entry}
    (hentry : entry ∈ entriesOf rules ++ entriesOf terminals) {identifier : String}
    {kind : Option SymbolKind} (hreference : (identifier, kind) ∈ entry.references) :
    (resolved name rules terminals documentation imports).symbols.kindOf identifier =
      .ok ((resolved name rules terminals documentation imports).symbols.kind identifier) := by
  refine SymbolTable.kindOf_eq_ok ?_
  rw [kindOf?_symbols_resolved, ne_eq, SymbolTable.kindOf?_eq_none_iff]
  rintro ⟨hundefined, himports⟩
  have hwalk : .reference identifier kind ∈ entry.walk := Entry.mem_references_iff.mp hreference
  rcases h.defined entry hentry identifier kind hwalk with ⟨target, htarget, heq⟩ | himport
  · exact hundefined target htarget heq
  · exact himports himport

/-- A listed entry is found in the grammar that was built, and laid out there as it is by itself:
with the same fault, or as the same drawing but for the targets of rule boxes, which are the kinds
that the symbol table gives the identifiers. -/
theorem layout_entry {g : Grammar}
    (hbuilt : ∀ entry, .entry entry ∈ rules ++ terminals →
      ∃ node : EntryNode, node.build = .ok entry)
    (hbuild : build name rules terminals documentation imports = .ok g) {entry : Entry}
    (hentry : .entry entry ∈ rules ++ terminals) :
    ∃ copy, g.entry entry.identifier = .ok copy ∧
      (∀ reference ∈ entry.references,
        g.symbols.kindOf reference.1 = .ok (g.symbols.kind reference.1)) ∧
      ∀ m measure, copy.layout m measure =
        (entry.layout m measure).map (Drawing.withTargets g.symbols.kind) := by
  obtain ⟨hconsistent, rfl⟩ := consistent_of_build hbuilt hbuild
  have hmem : entry ∈ entriesOf rules ++ entriesOf terminals := by
    rwa [List.mem_append, mem_entriesOf, mem_entriesOf, ← List.mem_append]
  refine ⟨_, entry_resolved hconsistent hmem, ?_, ?_⟩
  · intro reference hreference
    exact kindOf_symbols_resolved hconsistent hmem hreference
  · intro m measure
    exact Entry.layout_withKinds entry

/-- A rule that refers to itself, to a terminal and to something imported. -/
theorem layout_entry_listRule :
    ∃ g, build "List" [.entry listRule] [.entry itemTerminal] "" ["other", "ITEM"] = .ok g ∧
      ∃ copy, g.entry "list" = .ok copy ∧
        (∀ reference ∈ listRule.references,
          g.symbols.kindOf reference.1 = .ok (g.symbols.kind reference.1)) ∧
        ∃ d, listRule.layout .standard (.const (some (.int 9))) = .ok d ∧
          copy.layout .standard (.const (some (.int 9))) = .ok (d.withTargets g.symbols.kind) := by
  have hbuilt : ∀ entry, .entry entry ∈ [Listing.entry listRule] ++ [.entry itemTerminal] →
      ∃ node : EntryNode, node.build = .ok entry := by
    intro entry hentry
    simp only [List.cons_append, List.nil_append, List.mem_cons, Listing.entry.injEq,
      List.not_mem_nil, or_false] at hentry
    rcases hentry with rfl | rfl
    · exact ⟨⟨.rule, "list", "", [[.alternation [.reference "ITEM" none,
        .sequence [.quantified (.reference "list" none) .star, .reference "other" none]]]]⟩, rfl⟩
    · exact ⟨⟨.terminal false, "ITEM", "", [[.literal "x"]]⟩, rfl⟩
  have hbuild : build "List" [.entry listRule] [.entry itemTerminal] "" ["other", "ITEM"] =
    .ok _ := rfl
  have hlayout : listRule.layout .standard (.const (some (.int 9))) = .ok _ := rfl
  have hlisted : .entry listRule ∈ [Listing.entry listRule] ++ [.entry itemTerminal] :=
    List.mem_cons_self ..
  obtain ⟨copy, hcopy, hkinds, hlayouts⟩ := layout_entry hbuilt hbuild hlisted
  refine ⟨_, hbuild, copy, hcopy, hkinds, _, hlayout, ?_⟩
  rw [hlayouts, hlayout]
  rfl

end Grammar

end SyntaxDiagram
