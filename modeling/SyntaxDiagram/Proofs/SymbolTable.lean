import SyntaxDiagram.SymbolTable
import SyntaxDiagram.Proofs.Element.Kinds
import SyntaxDiagram.Proofs.Entry.Normal
import Mathlib.Data.List.Nodup

/-!
# Definition and resolution

Entries are defined iff their identifiers are distinct (`defineAll_eq_ok_iff`), and else turned down
for the first one that is not (`defineAll_eq_error_iff`).  An entry in normal form is resolved iff
the table admits all of its elements, and then nothing but the kinds of its references changes
(`resolveEntry_eq_ok_iff`).  Else the first element that is not admitted is refused
(`error?_resolveEntry`).
-/

namespace SyntaxDiagram

/-- The same entry, with kinds of references that depend on the identifiers alone. -/
def Entry.withKinds (kind : String → SymbolKind) (entry : Entry) : Entry :=
  { entry with alternatives := entry.alternatives.map (·.map (Element.withKinds kind)) }

/-- Only the kinds that are given last are kept. -/
theorem Entry.withKinds_withKinds (kind kind' : String → SymbolKind) (entry : Entry) :
    (entry.withKinds kind).withKinds kind' = entry.withKinds kind' := by
  simp only [withKinds, List.map_map, Function.comp_def, Element.withKinds_withKinds]

/-- Other kinds of references leave an entry in normal form. -/
theorem Entry.Normal.withKinds {kind : String → SymbolKind} {entry : Entry} (h : entry.Normal) :
    (entry.withKinds kind).Normal where
  identifier_nonempty := h.identifier_nonempty
  alternatives_nonempty := by simpa [Entry.withKinds] using h.alternatives_nonempty
  normal := by
    simp only [Entry.withKinds, List.forall_mem_map]
    exact fun alternative halternative element helement =>
      (h.normal alternative halternative element helement).withKinds
  leaves := by
    simp only [Entry.withKinds, List.forall_mem_map, Element.isLeaf_withKinds]
    exact h.leaves

namespace SymbolTable

variable {table table' : SymbolTable}

/-! ### Definition -/

/-- Nothing is found iff no entry has the identifier. -/
theorem find?_eq_none_iff {identifier : String} :
    table.find? identifier = none ↔ identifier ∉ table.entries.map (·.identifier) := by
  simp [find?]

/-- With distinct identifiers, an entry is found under its own and no other one. -/
theorem find?_eq_some_iff (h : (table.entries.map (·.identifier)).Nodup) {identifier : String}
    {entry : Entry} :
    table.find? identifier = some entry ↔
      entry ∈ table.entries ∧ entry.identifier = identifier := by
  constructor
  · intro hfind
    have hidentifier := List.find?_some hfind
    exact ⟨List.mem_of_find?_eq_some hfind, by simpa using hidentifier⟩
  · rintro ⟨hmem, rfl⟩
    cases hfind : table.find? entry.identifier with
    | none => exact absurd (List.mem_map_of_mem hmem) (find?_eq_none_iff.mp hfind)
    | some found =>
      have hidentifier := List.find?_some hfind
      rw [List.inj_on_of_nodup_map h (List.mem_of_find?_eq_some hfind) hmem
        (by simpa using hidentifier)]

/-- With distinct identifiers in the table so far, entries are defined iff all are distinct then. -/
theorem defineAll_eq_ok_iff {entries : List Entry}
    (h : (table.entries.map (·.identifier)).Nodup) :
    table.defineAll entries = .ok table' ↔
      ((table.entries ++ entries).map (·.identifier)).Nodup ∧
        table' = ⟨table.entries ++ entries, table.imports⟩ := by
  rw [defineAll]
  -- on the entries to come, over any table so far with distinct identifiers
  induction entries generalizing table with
  | nil =>
    rw [List.foldlM_nil, pure_eq_ok_iff, List.append_nil, and_iff_right h]
    exact eq_comm
  | cons entry rest ih =>
    have hsplit : table.entries ++ entry :: rest = table.entries ++ [entry] ++ rest :=
      List.append_cons ..
    have hnodup (hentry : entry.identifier ∉ table.entries.map (·.identifier)) :
        ((table.entries ++ [entry]).map (·.identifier)).Nodup := by
      rw [List.map_append, List.map_cons, List.nodup_middle, List.map_nil, List.append_nil]
      exact List.nodup_cons.mpr ⟨hentry, h⟩
    rw [List.foldlM_cons, bind_eq_ok_iff, hsplit]
    simp only [define_eq_ok_iff, find?_eq_none_iff]
    constructor
    · rintro ⟨_, ⟨hentry, rfl⟩, hrest⟩
      exact (ih (hnodup hentry)).mp hrest
    · rintro ⟨hall, rfl⟩
      have hentry : entry.identifier ∉ table.entries.map (·.identifier) := by
        rw [← hsplit, List.map_append, List.map_cons, List.nodup_middle] at hall
        exact fun hmem => (List.nodup_cons.mp hall).1 (List.mem_append_left _ hmem)
      exact ⟨_, ⟨hentry, rfl⟩, (ih (hnodup hentry)).mpr ⟨hall, rfl⟩⟩

/-- An entry is turned down iff its identifier is taken, and the error tells by what kind of
symbol. -/
theorem define_eq_error_iff {entry : Entry} {error : GrammarError} :
    table.define entry = .error error ↔
      ∃ earlier, table.find? entry.identifier = some earlier ∧
        error = .about entry.identifier (.alreadyDefined earlier.kind.symbolKind) := by
  unfold define
  split <;> rename_i h <;> simp [h, eq_comm]

/-- With distinct identifiers in the table so far, entries are turned down for the first one with
the identifier of an earlier one. -/
theorem defineAll_eq_error_iff {entries : List Entry} {error : GrammarError}
    (h : (table.entries.map (·.identifier)).Nodup) :
    table.defineAll entries = .error error ↔
      ∃ before entry after, entries = before ++ entry :: after ∧
        ((table.entries ++ before).map (·.identifier)).Nodup ∧
        ∃ earlier ∈ table.entries ++ before, earlier.identifier = entry.identifier ∧
          error = .about entry.identifier (.alreadyDefined earlier.kind.symbolKind) := by
  have hbefore (before : List Entry) (table' : SymbolTable) :
      before.foldlM define table = .ok table' ↔
        ((table.entries ++ before).map (·.identifier)).Nodup ∧
          table' = ⟨table.entries ++ before, table.imports⟩ := defineAll_eq_ok_iff h
  rw [defineAll, foldlM_eq_error_iff]
  simp only [hbefore, define_eq_error_iff]
  constructor
  · rintro ⟨before, entry, after, _, hsplit, ⟨hnodup, rfl⟩, earlier, hfind, rfl⟩
    obtain ⟨hmem, hidentifier⟩ := (find?_eq_some_iff hnodup).mp hfind
    exact ⟨before, entry, after, hsplit, hnodup, earlier, hmem, hidentifier, rfl⟩
  · rintro ⟨before, entry, after, hsplit, hnodup, earlier, hmem, hidentifier, rfl⟩
    exact ⟨before, entry, after, _, hsplit, ⟨hnodup, rfl⟩, earlier,
      (find?_eq_some_iff hnodup).mpr ⟨hmem, hidentifier⟩, rfl⟩

/-- Entries are defined in an empty table iff their identifiers are distinct. -/
theorem defineAll_empty_eq_ok_iff {imports : List String} {entries : List Entry} :
    (empty imports).defineAll entries = .ok table ↔
      (entries.map (·.identifier)).Nodup ∧ table = ⟨entries, imports⟩ :=
  defineAll_eq_ok_iff List.nodup_nil

/-- Entries are turned down for the first one with the identifier of an earlier one. -/
theorem defineAll_empty_eq_error_iff {imports : List String} {entries : List Entry}
    {error : GrammarError} :
    (empty imports).defineAll entries = .error error ↔
      ∃ before entry after, entries = before ++ entry :: after ∧
        (before.map (·.identifier)).Nodup ∧
        ∃ earlier ∈ before, earlier.identifier = entry.identifier ∧
          error = .about entry.identifier (.alreadyDefined earlier.kind.symbolKind) :=
  defineAll_eq_error_iff List.nodup_nil

/-! ### Resolution -/

/-- An identifier names nothing iff it is neither defined nor imported. -/
theorem kindOf?_eq_none_iff {identifier : String} :
    table.kindOf? identifier = none ↔
      (∀ target ∈ table.entries, target.identifier ≠ identifier) ∧ identifier ∉ table.imports := by
  have hfind : table.find? identifier = none ↔
      ∀ target ∈ table.entries, target.identifier ≠ identifier := by simp [find?]
  rw [← hfind, kindOf?]
  cases table.find? identifier <;> simp

/-- With distinct identifiers, what names a rule is the identifier of one. -/
theorem kindOf?_eq_rule_iff (h : (table.entries.map (·.identifier)).Nodup) {identifier : String} :
    table.kindOf? identifier = some .rule ↔
      ∃ rule ∈ table.entries, rule.identifier = identifier ∧ rule.kind.isRule = true := by
  have hfind (rule : Entry) := @find?_eq_some_iff table h identifier rule
  have hkind (kind : EntryKind) : kind.symbolKind = .rule ↔ kind.isRule = true := by
    cases kind <;> simp [EntryKind.symbolKind, EntryKind.isRule]
  simp only [← and_assoc, ← hfind, kindOf?]
  cases table.find? identifier <;> simp [hkind]

/-- What an identifier names: what the table defines, whether or not it imports the same identifier,
and else something imported. -/
def kind (table : SymbolTable) (identifier : String) : SymbolKind :=
  match table.find? identifier with
  | some entry => entry.kind.symbolKind
  | none => .external

theorem kind_eq_getD (identifier : String) :
    table.kind identifier = (table.kindOf? identifier).getD .external := by
  rw [kind, kindOf?]
  cases table.find? identifier with
  | some entry => rfl
  | none =>
    by_cases himport : table.imports.contains identifier = true
    · rw [if_pos himport]
      rfl
    · rw [if_neg himport]
      rfl

theorem kind_of_kindOf?_eq_some {identifier : String} {kind : SymbolKind}
    (h : table.kindOf? identifier = some kind) : table.kind identifier = kind := by
  rw [kind_eq_getD, h, Option.getD_some]

/-- Tables that know the same symbols give them the same kinds. -/
theorem kind_congr {table' : SymbolTable} (h : table'.kindOf? = table.kindOf?) :
    table'.kind = table.kind := by
  funext identifier
  rw [kind_eq_getD, kind_eq_getD, h]

/-- What names something in a table has the kind that the table gives it. -/
theorem kindOf_eq_ok {identifier : String} (h : table.kindOf? identifier ≠ none) :
    table.kindOf identifier = .ok (table.kind identifier) := by
  obtain ⟨kind, hkind⟩ := Option.ne_none_iff_exists'.mp h
  rw [kindOf, hkind, kind_of_kindOf?_eq_some hkind]

/-- An element that may stand in an entry: it is of a known variant, and a reference is to a
defined or imported symbol, and not from a terminal to a rule. -/
def Admits (table : SymbolTable) (owner : Entry) : Element → Prop
  | .reference identifier _ =>
    ∃ kind, table.kindOf? identifier = some kind ∧ (owner.kind.isRule = false → kind ≠ .rule)
  | .foreign _ => False
  | _ => True

/-- A reference is resolved iff it names something that its owner may refer to. -/
theorem resolveReference_eq_ok_iff {owner : Entry} {identifier : String} {kind : SymbolKind} :
    table.resolveReference owner identifier = .ok kind ↔
      table.kindOf? identifier = some kind ∧ (owner.kind.isRule = false → kind ≠ .rule) := by
  rw [resolveReference]
  cases table.kindOf? identifier with
  | none => simp
  | some kind' =>
    cases owner.kind.isRule with
    | true => simp
    | false =>
      simp only [Bool.not_false, Bool.true_and, beq_iff_eq, Option.some.injEq, true_imp_iff]
      split_ifs with hrule
      · subst hrule
        simp only [false_iff, not_and, not_not]
        exact Eq.symm
      · rw [Except.ok.injEq, iff_self_and]
        rintro rfl
        exact hrule

/-- A reference is turned down because it names nothing, or a rule from within a terminal. -/
theorem resolveReference_eq_error_iff {owner : Entry} {identifier : String}
    {error : GrammarError} :
    table.resolveReference owner identifier = .error error ↔
      (table.kindOf? identifier = none ∧
        error = .about owner.identifier (.undefinedReference identifier)) ∨
      (table.kindOf? identifier = some .rule ∧ owner.kind.isRule = false ∧
        error = .about owner.identifier (.terminalReferencesRule identifier)) := by
  rw [resolveReference]
  cases table.kindOf? identifier with
  | none => simpa using eq_comm
  | some kind =>
    cases owner.kind.isRule with
    | true => simp
    | false =>
      simp only [Bool.not_false, Bool.true_and, beq_iff_eq]
      split_ifs with hrule
      · simpa [hrule] using eq_comm
      · simp [hrule]

theorem resolveElements_eq_mapM {owner : Entry} (elements : List Element) :
    table.resolveElements owner elements = elements.mapM (table.resolveElement owner) := by
  induction elements with
  | nil => rfl
  | cons element rest ih => rw [resolveElements, List.mapM_cons, ih]

/-- An element in normal form is resolved iff all that is in it is admitted. -/
theorem resolveElement_eq_ok_iff {owner : Entry} {element element' : Element}
    (h : element.Normal) :
    table.resolveElement owner element = .ok element' ↔
      (∀ x ∈ element.walk, table.Admits owner x) ∧ element' = element.withKinds table.kind := by
  induction h generalizing element' with
  | literal text =>
    have hwalk : (Element.literal text).walk = [.literal text] := rfl
    rw [resolveElement, hwalk, List.forall_mem_singleton, Except.ok.injEq, Element.withKinds]
    exact ⟨fun h => ⟨trivial, h.symm⟩, fun h => h.2.symm⟩
  | reference identifier kind' =>
    have hwalk : (Element.reference identifier kind').walk = [.reference identifier kind'] := rfl
    rw [resolveElement, bind_eq_ok_iff, hwalk, List.forall_mem_singleton, Element.withKinds]
    simp only [resolveReference_eq_ok_iff, pure_eq_ok_iff, Admits]
    constructor
    · rintro ⟨kind, hkind, rfl⟩
      exact ⟨⟨kind, hkind⟩, by rw [kind_of_kindOf?_eq_some hkind.1]⟩
    · rintro ⟨⟨kind, hkind⟩, rfl⟩
      exact ⟨kind, hkind, by rw [kind_of_kindOf?_eq_some hkind.1]⟩
  -- the items are resolved iff all is admitted, and in normal form what is built of them keeps its
  -- shape
  | @sequence items nonempty _ ih =>
    have hitems := mapM_eq_ok_iff_of_forall fun item hitem _ => ih item hitem
    have hbuild := @Element.ofSequence_elements (items.map (Element.withKinds table.kind))
      (by simpa using nonempty)
    have hadmits : table.Admits owner (.sequence items) := trivial
    rw [resolveElement, resolveElements_eq_mapM, bind_eq_ok_iff_of_forall hitems hbuild,
      Element.walk, Element.walkList_eq_flatMap, List.forall_mem_cons, and_iff_right hadmits,
      List.forall_mem_flatMap, Element.withKinds, Element.withKindsList_eq_map]
  | @alternation branches nonempty sequences _ ih =>
    have hbranches := mapM_eq_ok_iff_of_forall fun branch hbranch _ => ih branch hbranch
    have hbuild := @Element.ofAlternation_elements (branches.map (Element.withKinds table.kind))
      (by simpa using nonempty) (Element.sequences_withKinds sequences)
    have hadmits : table.Admits owner (.alternation branches) := trivial
    rw [resolveElement, resolveElements_eq_mapM, bind_eq_ok_iff_of_forall hbranches hbuild,
      Element.walk, Element.walkList_eq_flatMap, List.forall_mem_cons, and_iff_right hadmits,
      List.forall_mem_flatMap, Element.withKinds, Element.withKindsList_eq_map]
  | @quantified item quantifier settled _ ih =>
    have hbuild : Element.ofQuantified (.element (item.withKinds table.kind)) quantifier =
        .ok (.quantified (item.withKinds table.kind) quantifier) :=
      congrArg Except.ok (Element.quantify_of_settled (Element.settled_withKinds settled))
    have hadmits : table.Admits owner (.quantified item quantifier) := trivial
    rw [resolveElement, bind_eq_ok_iff_of_forall (fun _ => ih) hbuild, Element.walk,
      List.forall_mem_cons, and_iff_right hadmits, Element.withKinds]
  | foreign name =>
    have hwalk : (Element.foreign name).walk = [.foreign name] := rfl
    rw [resolveElement, hwalk, List.forall_mem_singleton]
    simp [Admits]

/-- Resolution changes nothing but the alternatives of an entry. -/
theorem exists_of_resolveEntry {entry entry' : Entry} (h : table.resolveEntry entry = .ok entry') :
    ∃ alternatives, entry' = { entry with alternatives } := by
  rw [resolveEntry, bind_eq_ok_iff] at h
  obtain ⟨_, -, h⟩ := h
  obtain ⟨-, alternatives, -, -, rfl⟩ := Entry.build_eq_ok_iff.mp h
  exact ⟨alternatives, rfl⟩

/-- Whatever does not depend on the alternatives of an entry stays as it is. -/
theorem map_eq_map_of_mapM_resolveEntry {γ : Type} (f : Entry → γ) {entries entries' : List Entry}
    (h : entries.mapM table.resolveEntry = .ok entries')
    (hf : ∀ entry alternatives, f { entry with alternatives } = f entry) :
    entries'.map f = entries.map f := by
  refine map_eq_map_of_mapM_eq_ok h fun entry _ entry' hentry => ?_
  obtain ⟨alternatives, rfl⟩ := exists_of_resolveEntry hentry
  exact hf entry alternatives

/-- Alternatives in normal form are resolved iff all in them is admitted, with new kinds alone. -/
theorem mapM_resolveElements_eq_ok_iff {entry : Entry} (h : entry.Normal)
    {alternatives : List (List Element)} :
    entry.alternatives.mapM (table.resolveElements entry) = .ok alternatives ↔
      (∀ alternative ∈ entry.alternatives, ∀ element ∈ alternative, ∀ x ∈ element.walk,
          table.Admits entry x) ∧
        alternatives = entry.alternatives.map (·.map (Element.withKinds table.kind)) := by
  refine mapM_eq_ok_iff_of_forall (fun alternative halternative alternative' => ?_) _
  rw [resolveElements_eq_mapM]
  exact mapM_eq_ok_iff_of_forall (fun element helement _ =>
    resolveElement_eq_ok_iff (h.normal alternative halternative element helement)) _

/-- Building an entry in normal form anew, with other kinds of references, changes only these. -/
theorem build_withKinds {kind : String → SymbolKind} {entry : Entry} (h : entry.Normal) :
    Entry.build entry.kind entry.identifier entry.documentation
      ((entry.alternatives.map (·.map (Element.withKinds kind))).map (·.map .element)) =
        .ok (entry.withKinds kind) :=
  Entry.build_elements h.withKinds

/-- An entry in normal form is resolved iff all that is in it is admitted, and then into a copy with
other kinds of references. -/
theorem resolveEntry_eq_ok_iff {entry entry' : Entry} (h : entry.Normal) :
    table.resolveEntry entry = .ok entry' ↔
      (∀ x ∈ entry.walk, table.Admits entry x) ∧ entry' = entry.withKinds table.kind := by
  rw [resolveEntry,
    bind_eq_ok_iff_of_forall (fun _ => mapM_resolveElements_eq_ok_iff h) (build_withKinds h),
    Entry.walk, List.forall_mem_flatMap]
  simp only [Element.walkList_eq_flatMap, List.forall_mem_flatMap]

/-- A reference is admitted iff it is to a defined or imported symbol, and not from a terminal to a
rule. -/
theorem admits_reference_iff (h : (table.entries.map (·.identifier)).Nodup) {owner : Entry}
    {identifier : String} {kind : Option SymbolKind} :
    table.Admits owner (.reference identifier kind) ↔
      ((∃ target ∈ table.entries, target.identifier = identifier) ∨ identifier ∈ table.imports) ∧
        (owner.kind.isRule = false → ∀ target ∈ table.entries,
          target.identifier = identifier → target.kind.isRule = false) := by
  rw [Admits, kindOf?]
  cases hfind : table.find? identifier with
  | none =>
    have hnone : ∀ target ∈ table.entries, target.identifier ≠ identifier := fun target ht heq =>
      find?_eq_none_iff.mp hfind (heq ▸ List.mem_map_of_mem ht)
    simp only [Option.ite_none_right_eq_some, Option.some.injEq, List.contains_iff_mem]
    constructor
    · rintro ⟨_, ⟨himport, rfl⟩, -⟩
      exact ⟨Or.inr himport, fun _ target ht heq => absurd heq (hnone target ht)⟩
    · rintro ⟨⟨target, ht, heq⟩ | himport, -⟩
      · exact absurd heq (hnone target ht)
      · exact ⟨.external, ⟨himport, rfl⟩, fun _ => by decide⟩
  | some entry =>
    obtain ⟨hmem, hidentifier⟩ := (find?_eq_some_iff h).mp hfind
    have hkind : entry.kind.symbolKind ≠ .rule ↔ entry.kind.isRule = false := by
      cases entry.kind <;> simp [EntryKind.symbolKind, EntryKind.isRule]
    simp only [Option.some.injEq, exists_eq_left', hkind]
    -- a second entry of this identifier could be a rule, so the identifiers have to be distinct
    constructor
    · intro howner
      refine ⟨Or.inl ⟨entry, hmem, hidentifier⟩, fun hterminal target ht heq => ?_⟩
      have htarget := (find?_eq_some_iff h).mpr ⟨ht, heq⟩
      rw [hfind] at htarget
      obtain rfl := Option.some.inj htarget
      exact howner hterminal
    · rintro ⟨-, howner⟩ hterminal
      exact howner hterminal entry hmem hidentifier

/-! ### Errors of resolution -/

/-- What is wrong with an element of an entry, apart from those below it. -/
def refusal? (table : SymbolTable) (owner : Entry) : Element → Option GrammarError
  | .reference identifier _ => error? (table.resolveReference owner identifier)
  | .foreign name => some (.about owner.identifier (.unknownElement (.foreign name)))
  | _ => none

/-- A sequence of some elements is always built. -/
theorem error?_ofSequence {items : List Element} (h : items ≠ []) :
    error? (Element.ofSequence (items.map .element)) = none := by
  rw [Element.ofSequence_elements h, error?_ok]

/-- An alternation of some branches is always built. -/
theorem error?_ofAlternation {branches : List Element} (h : branches ≠ []) :
    error? (Element.ofAlternation (branches.map .element)) = none := by
  have hbranches : error? ((branches.map Item.element).mapM Item.toBranch) = none := by
    rw [error?_mapM, List.findSome?_eq_none_iff, List.forall_mem_map]
    exact fun branch _ => rfl
  obtain ⟨items, hitems⟩ := error?_eq_none_iff.mp hbranches
  obtain ⟨first, rest, rfl⟩ := List.exists_cons_of_ne_nil h
  rw [List.map_cons] at hitems ⊢
  rw [Element.ofAlternation, hitems]
  · rfl
  · simp

/-- The resolution of an element in normal form fails at the first thing in it that is wrong. -/
theorem error?_resolveElement {owner : Entry} {element : Element} (h : element.Normal) :
    error? (table.resolveElement owner element) =
      element.walk.findSome? (table.refusal? owner) := by
  induction h with
  | literal text => rfl
  | reference identifier kind =>
    rw [resolveElement, error?_bind_of_forall fun _ _ => error?_pure _, Option.or_none]
    exact List.findSome?_singleton.symm
  | @sequence items nonempty _ ih =>
    -- what is resolved can always be put together again, so only an item can fail
    have hbuild (items' : List Element)
        (hitems : table.resolveElements owner items = .ok items') :
        error? (Element.ofSequence (items'.map .element)) = none := by
      rw [resolveElements_eq_mapM] at hitems
      exact error?_ofSequence (ne_nil_of_mapM_eq_ok hitems nonempty)
    rw [resolveElement, error?_bind_of_forall hbuild, Option.or_none, resolveElements_eq_mapM,
      error?_mapM_of_forall ih, Element.walk, Element.walkList_eq_flatMap]
    rfl
  | @alternation branches nonempty _ _ ih =>
    have hbuild (branches' : List Element)
        (hbranches : table.resolveElements owner branches = .ok branches') :
        error? (Element.ofAlternation (branches'.map .element)) = none := by
      rw [resolveElements_eq_mapM] at hbranches
      exact error?_ofAlternation (ne_nil_of_mapM_eq_ok hbranches nonempty)
    rw [resolveElement, error?_bind_of_forall hbuild, Option.or_none, resolveElements_eq_mapM,
      error?_mapM_of_forall ih, Element.walk, Element.walkList_eq_flatMap]
    rfl
  | @quantified item quantifier _ _ ih =>
    have hbuild (item' : Element) (_ : table.resolveElement owner item = .ok item') :
        error? (Element.ofQuantified (.element item') quantifier) = none := rfl
    rw [resolveElement, error?_bind_of_forall hbuild, Option.or_none, ih, Element.walk]
    rfl
  | foreign name => rfl

/-- The resolution of an entry in normal form fails at the first thing in it that is wrong. -/
theorem error?_resolveEntry {entry : Entry} (h : entry.Normal) :
    error? (table.resolveEntry entry) = entry.walk.findSome? (table.refusal? entry) := by
  have hbuild (alternatives : List (List Element))
      (halternatives : entry.alternatives.mapM (table.resolveElements entry) = .ok alternatives) :
      error? (Entry.build entry.kind entry.identifier entry.documentation
        (alternatives.map (·.map .element))) = none := by
    rw [((mapM_resolveElements_eq_ok_iff h).mp halternatives).2, build_withKinds h, error?_ok]
  rw [resolveEntry, error?_bind_of_forall hbuild, Option.or_none, Entry.walk]
  refine error?_mapM_of_forall fun alternative halternative => ?_
  rw [resolveElements_eq_mapM, Element.walkList_eq_flatMap]
  exact error?_mapM_of_forall fun element helement =>
    error?_resolveElement (h.normal alternative halternative element helement)

end SymbolTable

end SyntaxDiagram
