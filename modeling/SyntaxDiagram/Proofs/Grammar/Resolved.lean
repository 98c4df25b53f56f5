import SyntaxDiagram.Proofs.Element.Equality
import SyntaxDiagram.Proofs.Grammar
import Mathlib.Logic.Function.Iterate

/-!
# Resolving again

What resolution returns is resolved to itself (`SymbolTable.resolveEntry_resolved`), by any table in
which identifiers name what they did before.  The table of a built grammar is one, although its
entries are other ones, so that resolving a grammar again and again changes nothing
(`Grammar.resolution_idempotent`).
-/

namespace SyntaxDiagram

namespace SymbolTable

variable {table table' : SymbolTable} {owner owner' : Entry}

/-! ### Elements -/

theorem resolveElement_singleton {element : Element}
    (h : table.resolveElement owner element = .ok element) :
    table.resolveElement owner (.sequence [element]) = .ok (.sequence [element]) := by
  rw [resolveElement, resolveElements, h]
  rfl

/-- The branch that is made of a resolved element is resolved itself. -/
theorem resolveElement_of_toBranch {element branch : Element}
    (helement : table.resolveElement owner element = .ok element)
    (h : (Item.element element).toBranch = .ok branch) :
    (∃ items, branch = .sequence items) ∧ table.resolveElement owner branch = .ok branch := by
  obtain ⟨_, helement', rfl⟩ := map_eq_ok_iff.mp h
  obtain rfl := Except.ok.inj helement'
  -- what is not a sequence yet is the single item of one
  cases element with
  | sequence items => exact ⟨⟨items, rfl⟩, helement⟩
  | _ => exact ⟨⟨_, rfl⟩, resolveElement_singleton helement⟩

/-- What an element is resolved to is resolved to itself, for every owner that may refer to the
same symbols. -/
theorem resolveElement_resolved
    (hreference : table'.resolveReference owner' = table.resolveReference owner)
    {x y : Element} (h : table.resolveElement owner x = .ok y) :
    table'.resolveElement owner' y = .ok y := by
  induction x generalizing y with
  | literal text =>
    obtain rfl := Except.ok.inj h
    rfl
  | reference identifier kind =>
    obtain ⟨kind', hkind, hy⟩ := bind_eq_ok_iff.mp h
    obtain rfl := pure_eq_ok_iff.mp hy
    rw [resolveElement, hreference, hkind]
    rfl
  | sequence items ih =>
    rw [resolveElement, resolveElements_eq_mapM, bind_eq_ok_iff] at h
    obtain ⟨items', hitems, hy⟩ := h
    obtain ⟨elements, helements, hnonempty, rfl⟩ := Element.exists_of_ofSequence hy
    obtain rfl : items' = elements := Except.ok.inj (by rw [← helements, Element.mapM_toElement])
    -- the items are resolved already, so the same sequence is built again
    have hself := mapM_eq_ok_self (forall_mem_of_mapM_eq_ok hitems fun x hx _ => ih x hx)
    rw [resolveElement, resolveElements_eq_mapM, hself]
    exact Element.ofSequence_elements hnonempty
  | alternation branches ih =>
    rw [resolveElement, resolveElements_eq_mapM, bind_eq_ok_iff] at h
    obtain ⟨elements, helements, hy⟩ := h
    obtain ⟨branches', hbranches, hnonempty, rfl⟩ := Element.exists_of_ofAlternation hy
    have hself := forall_mem_of_mapM_eq_ok helements fun x hx _ => ih x hx
    -- a branch is one of the elements or a sequence around it, resolved either way
    have hbranch : ∀ branch ∈ branches', (∃ items, branch = .sequence items) ∧
        table'.resolveElement owner' branch = .ok branch := by
      intro branch hmem
      obtain ⟨item, hitem, h⟩ := exists_of_mem_of_mapM_eq_ok hbranches hmem
      obtain ⟨element, helement, rfl⟩ := List.mem_map.mp hitem
      exact resolveElement_of_toBranch (hself element helement) h
    rw [resolveElement, resolveElements_eq_mapM, mapM_eq_ok_self fun b hb => (hbranch b hb).2]
    exact Element.ofAlternation_elements hnonempty fun b hb => (hbranch b hb).1
  | quantified item quantifier ih =>
    rw [resolveElement, bind_eq_ok_iff] at h
    obtain ⟨item', hitem, hy⟩ := h
    obtain rfl : item'.quantify quantifier = y := Except.ok.inj hy
    -- the quantifier was absorbed, or it is put on again in the same way
    rcases item'.quantify_eq_self_or_settled quantifier with hself | hsettled
    · rw [hself]
      exact ih hitem
    · rw [Element.quantify_of_settled hsettled, resolveElement, ih hitem,
        ← Element.quantify_of_settled hsettled]
      rfl
  | foreign name => cases h

/-- Only an element without foreign ones in it is resolved. -/
theorem foreign_notMem_of_resolveElement {x y : Element}
    (h : table.resolveElement owner x = .ok y) : ∀ name, .foreign name ∉ x.walk := by
  have hlist {items items' : List Element}
      (hitems : table.resolveElements owner items = .ok items')
      (ih : ∀ x ∈ items, ∀ {y}, table.resolveElement owner x = .ok y →
        ∀ name, .foreign name ∉ x.walk) :
      ∀ name, .foreign name ∉ Element.walkList items := by
    intro name hmem
    rw [Element.walkList_eq_flatMap, List.mem_flatMap] at hmem
    obtain ⟨x, hx, hmem⟩ := hmem
    rw [resolveElements_eq_mapM] at hitems
    obtain ⟨y, hy⟩ := exists_ok_of_mapM_eq_ok hitems hx
    exact ih x hx hy name hmem
  induction x generalizing y with
  | literal text => simp [Element.walk]
  | reference identifier kind => simp [Element.walk]
  | sequence items ih =>
    obtain ⟨items', hitems, -⟩ := bind_eq_ok_iff.mp h
    simpa [Element.walk] using hlist hitems ih
  | alternation branches ih =>
    obtain ⟨branches', hbranches, -⟩ := bind_eq_ok_iff.mp h
    simpa [Element.walk] using hlist hbranches ih
  | quantified item quantifier ih =>
    obtain ⟨item', hitem, -⟩ := bind_eq_ok_iff.mp h
    simpa [Element.walk] using ih hitem
  | foreign name => cases h

/-! ### Entries -/

/-- Resolving a reference depends on what the table knows, and on the kind and the identifier of its
owner. -/
theorem resolveReference_congr (htable : table'.kindOf? = table.kindOf?)
    (hkind : owner'.kind = owner.kind) (hidentifier : owner'.identifier = owner.identifier) :
    table'.resolveReference owner' = table.resolveReference owner := by
  funext identifier
  rw [resolveReference, resolveReference, htable, hkind, hidentifier]

/-- What an entry is resolved to is resolved to itself, by every table in which identifiers name the
same. -/
theorem resolveEntry_resolved (htable : table'.kindOf? = table.kindOf?) {entry entry' : Entry}
    (h : table.resolveEntry entry = .ok entry') : table'.resolveEntry entry' = .ok entry' := by
  rw [resolveEntry, bind_eq_ok_iff] at h
  obtain ⟨alternatives, halternatives, h⟩ := h
  obtain ⟨hidentifier, elements, helements, hleaves, hentry'⟩ := Entry.build_eq_ok_iff.mp h
  have hreference : table'.resolveReference entry' = table.resolveReference entry :=
    resolveReference_congr htable (by rw [hentry']) (by rw [hentry'])
  have hresolved : ∀ alternative ∈ elements, ∀ y ∈ alternative,
      table'.resolveElement entry' y = .ok y := by
    refine Entry.forall_mem_of_elementsOf helements ?_
    simp only [List.forall_mem_map]
    refine forall_mem_of_mapM_eq_ok halternatives fun alternative _ alternative' h => ?_
    rw [resolveElements_eq_mapM] at h
    refine forall_mem_of_mapM_eq_ok h fun x _ y hxy => ?_
    rintro _ ⟨⟩
    exact resolveElement_resolved hreference hxy
  have hself : elements.mapM (table'.resolveElements entry') = .ok elements := by
    refine mapM_eq_ok_self fun alternative halternative => ?_
    rw [resolveElements_eq_mapM]
    exact mapM_eq_ok_self (hresolved alternative halternative)
  subst hentry'
  rw [resolveEntry, hself]
  exact Entry.build_eq_ok_iff.mpr
    ⟨hidentifier, _, Entry.elementsOf_elements (Entry.ne_nil_of_elementsOf helements), hleaves, rfl⟩

/-- A comparison of an entry that is resolved with itself finds its alternatives equal. -/
theorem equalAlternatives_of_resolveEntry {entry entry' : Entry}
    (h : table.resolveEntry entry = .ok entry') :
    equalAlternatives entry.alternatives entry.alternatives = .ok true := by
  rw [resolveEntry, bind_eq_ok_iff] at h
  obtain ⟨alternatives, halternatives, -⟩ := h
  refine equalAlternatives_eq_true_iff.mpr ⟨rfl, fun alternative halternative x hx => ?_⟩
  obtain ⟨alternative', halternative'⟩ := exists_ok_of_mapM_eq_ok halternatives halternative
  rw [resolveElements_eq_mapM] at halternative'
  obtain ⟨y, hxy⟩ := exists_ok_of_mapM_eq_ok halternative' hx
  exact foreign_notMem_of_resolveElement hxy

/-! ### Tables -/

/-- Identifiers name the same in tables of entries with the same identifiers and kinds. -/
theorem kindOf?_congr (himports : table'.imports = table.imports)
    (hentries : table'.entries.map (fun entry => (entry.identifier, entry.kind)) =
      table.entries.map fun entry => (entry.identifier, entry.kind)) :
    table'.kindOf? = table.kindOf? := by
  funext identifier
  have hfind (table : SymbolTable) : (table.find? identifier).map (fun entry =>
      (entry.identifier, entry.kind)) = (table.entries.map fun entry =>
        (entry.identifier, entry.kind)).find? (·.1 == identifier) := by
    rw [List.find?_map]
    rfl
  have hkindOf (table : SymbolTable) : table.kindOf? identifier =
      match (table.find? identifier).map (fun entry => (entry.identifier, entry.kind)) with
      | some (_, kind) => some kind.symbolKind
      | none => if table.imports.contains identifier then some .external else none := by
    rw [kindOf?]
    cases table.find? identifier <;> rfl
  rw [hkindOf, hkindOf, hfind, hfind, hentries, himports]

end SymbolTable

namespace Grammar

theorem entriesOf_map_entry (entries : List Entry) : entriesOf (entries.map .entry) = entries := by
  rw [entriesOf, List.filterMap_map]
  exact List.filterMap_some

theorem rulesOf_map_entry {rules : List Entry} (h : ∀ rule ∈ rules, rule.kind = .rule) :
    rulesOf (rules.map .entry) = .ok rules := by
  refine rulesOf_eq_ok_iff.mpr ⟨?_, (entriesOf_map_entry rules).symm⟩
  exact List.forall_mem_map.mpr fun rule hrule => ⟨rule, rfl, h rule hrule⟩

theorem terminalsOf_map_entry {terminals : List Entry}
    (h : ∀ terminal ∈ terminals, terminal.kind ≠ .rule) :
    terminalsOf (terminals.map .entry) = .ok terminals := by
  refine terminalsOf_eq_ok_iff.mpr ⟨?_, (entriesOf_map_entry terminals).symm⟩
  exact List.forall_mem_map.mpr fun terminal hterminal => ⟨terminal, rfl, h terminal hterminal⟩

/-- What holds of the kind of each entry holds of the kind of each resolved one. -/
theorem forall_kind_of_mapM_resolveEntry {table : SymbolTable} {P : EntryKind → Prop}
    {entries entries' : List Entry} (h : entries.mapM table.resolveEntry = .ok entries')
    (hP : ∀ entry ∈ entries, P entry.kind) : ∀ entry ∈ entries', P entry.kind := by
  refine forall_mem_of_mapM_eq_ok h fun entry hentry entry' hresolve => ?_
  obtain ⟨alternatives, rfl⟩ := SymbolTable.exists_of_resolveEntry hresolve
  exact hP entry hentry

/-- The entries of a grammar are what its table defines, and each is resolved by it to itself. -/
structure Resolved (g : Grammar) : Prop where
  rules_only : ∀ rule ∈ g.rules, rule.kind = .rule
  terminals_only : ∀ terminal ∈ g.terminals, terminal.kind ≠ .rule
  distinct : (g.entries.map (·.identifier)).Nodup
  symbols_eq : g.symbols = ⟨g.entries, g.imports⟩
  resolveEntry_eq : ∀ entry ∈ g.entries, g.symbols.resolveEntry entry = .ok entry

/-- The resolved entries of a grammar name the same as the listed ones, whence they are resolved to
themselves. -/
theorem resolved_of_build {name documentation : String} {rules terminals : List Listing}
    {imports : List String} {g : Grammar}
    (h : build name rules terminals documentation imports = .ok g) : g.Resolved := by
  rw [build, mapError_eq_ok_iff, assemble] at h
  simp only [bind_eq_ok_iff, pure_eq_ok_iff, rulesOf_eq_ok_iff, terminalsOf_eq_ok_iff,
    SymbolTable.defineAll_empty_eq_ok_iff] at h
  obtain ⟨_, ⟨hrules, rfl⟩, _, ⟨hterminals, rfl⟩, _, ⟨-, rfl⟩, rules', hrules', terminals',
    hterminals', _, ⟨hdistinct, rfl⟩, rfl⟩ := h
  have hkindOf : SymbolTable.kindOf? ⟨rules' ++ terminals', imports⟩ =
      SymbolTable.kindOf? ⟨entriesOf rules ++ entriesOf terminals, imports⟩ := by
    refine SymbolTable.kindOf?_congr rfl ?_
    rw [List.map_append, List.map_append,
      SymbolTable.map_eq_map_of_mapM_resolveEntry _ hrules' fun _ _ => rfl,
      SymbolTable.map_eq_map_of_mapM_resolveEntry _ hterminals' fun _ _ => rfl]
  refine ⟨?_, ?_, hdistinct, rfl, List.forall_mem_append.mpr ⟨?_, ?_⟩⟩
  · exact forall_kind_of_mapM_resolveEntry (P := (· = .rule)) hrules'
      (forall_mem_entriesOf hrules)
  · exact forall_kind_of_mapM_resolveEntry (P := (· ≠ .rule)) hterminals'
      (forall_mem_entriesOf hterminals)
  · exact forall_mem_of_mapM_eq_ok hrules' fun _ _ _ hrule =>
      SymbolTable.resolveEntry_resolved hkindOf hrule
  · exact forall_mem_of_mapM_eq_ok hterminals' fun _ _ _ hterminal =>
      SymbolTable.resolveEntry_resolved hkindOf hterminal

/-- What is resolved is built from its own entries again. -/
theorem Resolved.resolve_eq {g : Grammar} (h : g.Resolved) : g.resolve = .ok g := by
  have hdefine : (SymbolTable.empty g.imports).defineAll (g.rules ++ g.terminals) =
      .ok g.symbols := SymbolTable.defineAll_empty_eq_ok_iff.mpr ⟨h.distinct, h.symbols_eq⟩
  obtain ⟨hrules, hterminals⟩ := List.forall_mem_append.mp h.resolveEntry_eq
  rw [resolve, build, mapError_eq_ok_iff, assemble]
  simp only [bind_eq_ok_iff, pure_eq_ok_iff]
  exact ⟨g.rules, rulesOf_map_entry h.rules_only, g.terminals,
    terminalsOf_map_entry h.terminals_only, g.symbols, hdefine, g.rules, mapM_eq_ok_self hrules,
    g.terminals, mapM_eq_ok_self hterminals, g.symbols, hdefine, rfl⟩

/-- Resolution is idempotent. A grammar that was built is resolved to itself, any number of times,
and an entry that any table resolves is resolved by it to the same again; a comparison finds the
alternatives equal. -/
theorem resolution_idempotent :
    (∀ {name documentation : String} {rules terminals : List Listing} {imports : List String}
      {g : Grammar}, build name rules terminals documentation imports = .ok g →
        g.resolve = .ok g ∧ (∀ n, (fun again => again >>= resolve)^[n] (.ok g) = .ok g) ∧
          ∀ entry ∈ g.entries,
            equalAlternatives entry.alternatives entry.alternatives = .ok true) ∧
      ∀ {table : SymbolTable} {entry entry' : Entry}, table.resolveEntry entry = .ok entry' →
        table.resolveEntry entry' = .ok entry' ∧
          equalAlternatives entry'.alternatives entry'.alternatives = .ok true := by
  refine ⟨fun {_ _ _ _ _ g} hbuild => ?_, fun {table _ entry'} hentry => ?_⟩
  · have hresolved := resolved_of_build hbuild
    refine ⟨hresolved.resolve_eq, fun n => ?_, fun entry hentry => ?_⟩
    · exact Function.iterate_fixed (f := fun again => again >>= resolve) hresolved.resolve_eq n
    · exact SymbolTable.equalAlternatives_of_resolveEntry (hresolved.resolveEntry_eq entry hentry)
  · have hself : table.resolveEntry entry' = .ok entry' :=
      SymbolTable.resolveEntry_resolved rfl hentry
    exact ⟨hself, SymbolTable.equalAlternatives_of_resolveEntry hself⟩

/-- A rule with references to itself, to a terminal and to something imported. -/
def listRule : Entry :=
  ⟨.rule, "list", "", [[.alternation [.sequence [.reference "ITEM" none],
    .sequence [.quantified (.reference "list" none) .star, .reference "other" none]]]]⟩

/-- The terminal that it refers to. -/
def itemTerminal : Entry :=
  ⟨.terminal false, "ITEM", "", [[.literal "x"]]⟩

/-- A grammar that hides one of its imports by a terminal. -/
theorem resolution_idempotent_listRule :
    build "List" [.entry listRule] [.entry itemTerminal] "" ["other", "ITEM"] =
        .ok (resolved "List" [.entry listRule] [.entry itemTerminal] "" ["other", "ITEM"]) ∧
      (resolved "List" [.entry listRule] [.entry itemTerminal] "" ["other", "ITEM"]).resolve =
        .ok (resolved "List" [.entry listRule] [.entry itemTerminal] "" ["other", "ITEM"]) ∧
      ∃ rule, SymbolTable.resolveEntry ⟨[itemTerminal, listRule], ["other"]⟩ listRule = .ok rule ∧
        SymbolTable.resolveEntry ⟨[itemTerminal, listRule], ["other"]⟩ rule = .ok rule ∧
        rule.references =
          [("ITEM", some .terminal), ("list", some .rule), ("other", some .external)] := by
  have hbuild : build "List" [.entry listRule] [.entry itemTerminal] "" ["other", "ITEM"] =
      .ok (resolved "List" [.entry listRule] [.entry itemTerminal] "" ["other", "ITEM"]) := rfl
  have hentry : SymbolTable.resolveEntry ⟨[itemTerminal, listRule], ["other"]⟩ listRule =
      .ok (listRule.withKinds (SymbolTable.kind ⟨[itemTerminal, listRule], ["other"]⟩)) := rfl
  exact ⟨hbuild, (resolution_idempotent.1 hbuild).1, _, hentry,
    (resolution_idempotent.2 hentry).1, rfl⟩

end Grammar

end SyntaxDiagram
