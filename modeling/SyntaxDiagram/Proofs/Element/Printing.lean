import SyntaxDiagram.Element.Printing
import SyntaxDiagram.Proofs.Node
import SyntaxDiagram.Proofs.Text.Parts
import SyntaxDiagram.Proofs.Text.Quoted

/-!
# Exact texts identify elements

The exact text of an element is the name of its variant with its arguments in parentheses
(`Element.toList_debug`).  The name ends at the parenthesis, a quoted text ends where it does, and
so does the text of an element below, whatever follows; so by induction two elements of known
variants have the same text only if they are the same (`Element.debug_append_inj`), which is iff a
comparison finds them equal (`Element.debug_eq_iff_equal`).
-/

namespace SyntaxDiagram

/-! ### Kinds and quantifiers -/

/-- What a reference shows of the kind of symbol that it names; it shows nothing if the kind is not
known. -/
def kindText : Option SymbolKind → List Char
  | none => []
  | some kind => ", ".toList ++ kind.debug.toList

theorem parenthesis_notMem_kindText (kind : Option SymbolKind) : ')' ∉ kindText kind := by
  rcases kind with _ | _ | _ | _ <;> decide

/-- The kind of a reference is told from what is shown of it. -/
theorem kindText_injective {kind kind' : Option SymbolKind} (h : kindText kind = kindText kind') :
    kind = kind' := by
  revert h
  rcases kind with _ | _ | _ | _ <;> rcases kind' with _ | _ | _ | _ <;> decide

theorem Quantifier.parenthesis_notMem_debug {quantifier : Quantifier}
    (h : quantifier.isKnown = true) : ')' ∉ quantifier.debug.toList := by
  cases quantifier with
  | unknown mark => cases h
  | _ => decide

/-- Known quantifiers are told apart by their exact texts. -/
theorem Quantifier.debug_injective {quantifier quantifier' : Quantifier}
    (h : quantifier.isKnown = true) (h' : quantifier'.isKnown = true)
    (hdebug : quantifier.debug.toList = quantifier'.debug.toList) : quantifier = quantifier' := by
  cases quantifier with
  | unknown mark => cases h
  | _ =>
    cases quantifier' with
    | unknown mark => cases h'
    | _ => first | rfl | exact absurd hdebug (by decide)

namespace Element

/-! ### Variants and arguments -/

/-- What stands between the parentheses of the exact text of an element. -/
def arguments : Element → List Char
  | .literal text => (quoted text).toList
  | .reference identifier kind => (quoted identifier).toList ++ kindText kind
  | .sequence items => ", ".toList.intercalate (items.map (·.debug.toList))
  | .alternation branches => ", ".toList.intercalate (branches.map (·.debug.toList))
  | .quantified item quantifier => item.debug.toList ++ (", ".toList ++ quantifier.debug.toList)
  | .foreign name => (quoted name).toList

/-- The exact text of an element is the name of its variant, with the arguments in parentheses. -/
theorem toList_debug (element : Element) :
    element.debug.toList = element.variantName.toList ++ '(' :: (element.arguments ++ [')']) := by
  cases element with
  | literal text =>
    show ("Literal(" ++ quoted text ++ ")").toList = _
    simp [variantName, arguments]
  | reference identifier kind =>
    cases kind with
    | none =>
      show ("Reference(" ++ quoted identifier ++ ")").toList = _
      simp [variantName, arguments, kindText]
    | some kind =>
      show ("Reference(" ++ quoted identifier ++ ", " ++ kind.debug ++ ")").toList = _
      simp [variantName, arguments, kindText]
  | sequence items =>
    show ("Sequence(" ++ ", ".intercalate (debugList items) ++ ")").toList = _
    simp [debugList_eq_map, variantName, arguments, String.toList_intercalate, Function.comp_def]
  | alternation branches =>
    show ("Alternation(" ++ ", ".intercalate (debugList branches) ++ ")").toList = _
    simp [debugList_eq_map, variantName, arguments, String.toList_intercalate, Function.comp_def]
  | quantified item quantifier =>
    show ("Quantified(" ++ debug item ++ ", " ++ quantifier.debug ++ ")").toList = _
    simp [variantName, arguments]
  | foreign name =>
    show ("Opaque(" ++ quoted name ++ ")").toList = _
    simp [variantName, arguments]

theorem parenthesis_notMem_variantName (element : Element) :
    '(' ∉ element.variantName.toList := by
  cases element <;> simp [variantName]

/-- No exact text begins with a closing parenthesis, so a list of them ends in one way only. -/
theorem debug_append_ne (element : Element) (rest rest' : List Char) :
    element.debug.toList ++ rest ≠ ')' :: rest' := by
  rw [toList_debug]
  cases element <;> simp [variantName]

/-- Two elements with the same text, and something behind it, are of the same variant and have the
same arguments. -/
theorem variantName_eq_of_debug_append {a b : Element} {rest rest' : List Char}
    (h : a.debug.toList ++ rest = b.debug.toList ++ rest') :
    a.variantName = b.variantName ∧ a.arguments ++ ')' :: rest = b.arguments ++ ')' :: rest' := by
  rw [toList_debug, toList_debug, List.append_assoc, List.append_assoc, List.cons_append,
    List.cons_append, List.append_assoc, List.append_assoc] at h
  obtain ⟨hname, harguments⟩ := append_mark_inj (parenthesis_notMem_variantName a)
    (parenthesis_notMem_variantName b) h
  exact ⟨String.toList_injective hname, harguments⟩

/-! ### Lists of elements -/

/-- Elements that can be told apart whatever follows can be told apart in a list. -/
theorem debugs_append_inj {xs ys : List Element} {rest rest' : List Char}
    (hinj : ∀ x ∈ xs, ∀ y ∈ ys, ∀ rest rest', x.debug.toList ++ rest = y.debug.toList ++ rest' →
      x = y ∧ rest = rest')
    (h : (xs.flatMap fun x => ", ".toList ++ x.debug.toList) ++ ')' :: rest =
      (ys.flatMap fun y => ", ".toList ++ y.debug.toList) ++ ')' :: rest') :
    xs = ys ∧ rest = rest' := by
  induction xs generalizing ys with
  | nil =>
    cases ys with
    | nil => exact ⟨rfl, (List.cons.inj h).2⟩
    | cons y ys => simp at h
  | cons x xs ih =>
    cases ys with
    | nil => simp at h
    | cons y ys =>
      rw [List.flatMap_cons, List.flatMap_cons] at h
      simp only [List.append_assoc] at h
      obtain ⟨rfl, htail⟩ := hinj x (List.mem_cons_self ..) y (List.mem_cons_self ..) _ _
        (List.append_cancel_left h)
      obtain ⟨rfl, hrest⟩ := ih (fun x hx y hy =>
        hinj x (List.mem_cons_of_mem _ hx) y (List.mem_cons_of_mem _ hy)) htail
      exact ⟨rfl, hrest⟩

/-- Lists of elements in parentheses are told apart, whatever follows. -/
theorem arguments_append_inj {xs ys : List Element} {rest rest' : List Char}
    (hinj : ∀ x ∈ xs, ∀ y ∈ ys, ∀ rest rest', x.debug.toList ++ rest = y.debug.toList ++ rest' →
      x = y ∧ rest = rest')
    (h : ", ".toList.intercalate (xs.map (·.debug.toList)) ++ ')' :: rest =
      ", ".toList.intercalate (ys.map (·.debug.toList)) ++ ')' :: rest') :
    xs = ys ∧ rest = rest' := by
  cases xs with
  | nil =>
    cases ys with
    | nil => exact ⟨rfl, (List.cons.inj h).2⟩
    | cons y ys =>
      rw [List.map_cons, intercalate_cons, List.append_assoc] at h
      exact absurd h.symm (y.debug_append_ne _ _)
  | cons x xs =>
    cases ys with
    | nil =>
      rw [List.map_cons, intercalate_cons, List.append_assoc] at h
      exact absurd h (x.debug_append_ne _ _)
    | cons y ys =>
      rw [List.map_cons, List.map_cons, intercalate_cons, intercalate_cons, List.append_assoc,
        List.append_assoc, List.flatMap_map, List.flatMap_map] at h
      obtain ⟨rfl, htail⟩ := hinj x (List.mem_cons_self ..) y (List.mem_cons_self ..) _ _ h
      obtain ⟨rfl, hrest⟩ := debugs_append_inj (fun x hx y hy =>
        hinj x (List.mem_cons_of_mem _ hx) y (List.mem_cons_of_mem _ hy)) htail
      exact ⟨rfl, hrest⟩

/-! ### Elements -/

/-- Two elements of known variants have the same text, whatever follows, only if they are the
same. -/
theorem debug_append_inj {a b : Element} (ha : ∀ x ∈ a.walk, x.IsKnown)
    (hb : ∀ x ∈ b.walk, x.IsKnown) {rest rest' : List Char}
    (h : a.debug.toList ++ rest = b.debug.toList ++ rest') : a = b ∧ rest = rest' := by
  induction a generalizing b rest rest' with
  | literal text =>
    obtain ⟨hname, harguments⟩ := variantName_eq_of_debug_append h
    cases b with
    | literal text' =>
      obtain ⟨rfl, hrest⟩ := quoted_append_inj harguments
      exact ⟨rfl, (List.cons.inj hrest).2⟩
    | _ => simp [variantName] at hname
  | reference identifier kind =>
    obtain ⟨hname, harguments⟩ := variantName_eq_of_debug_append h
    cases b with
    | reference identifier' kind' =>
      simp only [arguments, List.append_assoc] at harguments
      obtain ⟨rfl, hkinds⟩ := quoted_append_inj harguments
      obtain ⟨hkind, hrest⟩ := append_mark_inj (parenthesis_notMem_kindText kind)
        (parenthesis_notMem_kindText kind') hkinds
      exact ⟨by rw [kindText_injective hkind], hrest⟩
    | _ => simp [variantName] at hname
  | sequence items ih =>
    obtain ⟨hname, harguments⟩ := variantName_eq_of_debug_append h
    cases b with
    | sequence items' =>
      rw [forall_mem_walk_sequence] at ha hb
      obtain ⟨rfl, hrest⟩ := arguments_append_inj
        (fun x hx y hy _ _ h => ih x hx (ha.2 x hx) (hb.2 y hy) h) harguments
      exact ⟨rfl, hrest⟩
    | _ => simp [variantName] at hname
  | alternation branches ih =>
    obtain ⟨hname, harguments⟩ := variantName_eq_of_debug_append h
    cases b with
    | alternation branches' =>
      rw [forall_mem_walk_alternation] at ha hb
      obtain ⟨rfl, hrest⟩ := arguments_append_inj
        (fun x hx y hy _ _ h => ih x hx (ha.2 x hx) (hb.2 y hy) h) harguments
      exact ⟨rfl, hrest⟩
    | _ => simp [variantName] at hname
  | quantified item quantifier ih =>
    obtain ⟨hname, harguments⟩ := variantName_eq_of_debug_append h
    cases b with
    | quantified item' quantifier' =>
      rw [forall_mem_walk_quantified] at ha hb
      simp only [arguments, List.append_assoc] at harguments
      obtain ⟨rfl, hquantifiers⟩ := ih ha.2 hb.2 harguments
      -- a known quantifier has no parenthesis, so it ends at the one behind it
      obtain ⟨hquantifier, hrest⟩ := append_mark_inj
        (Quantifier.parenthesis_notMem_debug ha.1) (Quantifier.parenthesis_notMem_debug hb.1)
        (List.append_cancel_left hquantifiers)
      exact ⟨by rw [Quantifier.debug_injective ha.1 hb.1 hquantifier], hrest⟩
    | _ => simp [variantName] at hname
  | foreign name => exact absurd (ha _ (List.mem_cons_self ..)) not_false

/-- Two elements of known variants have the same exact text iff they are found equal, which is iff
they have the same structure. -/
theorem debug_eq_iff_equal {a b : Element} (ha : ∀ x ∈ a.walk, x.IsKnown)
    (hb : ∀ x ∈ b.walk, x.IsKnown) :
    (a.debug = b.debug ↔ a.equal b = .ok true) ∧ (a.equal b = .ok true ↔ a = b) := by
  have hforeign : ∀ name, Element.foreign name ∉ a.walk := fun name hname => ha _ hname
  have hequal : a.equal b = .ok true ↔ a = b :=
    equal_eq_true_iff.trans (and_iff_left hforeign)
  refine ⟨?_, hequal⟩
  rw [hequal]
  constructor
  · intro h
    have happend : a.debug.toList ++ [] = b.debug.toList ++ [] := by rw [h]
    exact (debug_append_inj ha hb happend).1
  · intro h
    rw [h]

/-- A text with quotes, commas and parentheses in it, and a reference. -/
def quotation : Element :=
  .sequence [.literal "it's \"a\"), Literal('b'", .reference "c" (some .rule)]

/-- The same with the text in a sequence of its own. -/
def groupedQuotation : Element :=
  .sequence [.sequence [.literal "it's \"a\"), Literal('b'"], .reference "c" (some .rule)]

theorem debug_ne_groupedQuotation :
    (∀ x ∈ quotation.walk, x.IsKnown) ∧ (∀ x ∈ groupedQuotation.walk, x.IsKnown) ∧
      quotation.debug ≠ groupedQuotation.debug ∧
      quotation.equal quotation = .ok true := by
  have hflat : ∀ x ∈ quotation.walk, x.IsKnown := by
    simp [quotation, walk, walkList, IsKnown]
  have hgrouped : ∀ x ∈ groupedQuotation.walk, x.IsKnown := by
    simp [groupedQuotation, walk, walkList, IsKnown]
  obtain ⟨hdebug, hequal⟩ := debug_eq_iff_equal hflat hgrouped
  refine ⟨hflat, hgrouped, fun h => ?_, (debug_eq_iff_equal hflat hflat).1.mp rfl⟩
  have hsame : quotation = groupedQuotation := hequal.mp (hdebug.mp h)
  have hfirst := (List.cons.inj (Element.sequence.inj hsame)).1
  cases hfirst

end Element

end SyntaxDiagram
