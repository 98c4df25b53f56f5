import SyntaxDiagram.Proofs.Box.Captions
import SyntaxDiagram.Proofs.Entry.Normal
import SyntaxDiagram.Proofs.Measure

/-!
# When a layout fails

Layout meets the elements of an entry from left to right, each after those below it
(`Entry.postorder`).  It ends at the first one that it cannot draw, and has a drawing if there is
none such (`Entry.layout_first_fault`).  What a measure says on other labels than those met until
then makes no difference.
-/

namespace SyntaxDiagram

namespace Element

variable {m : Metrics} {measure measure' : Measure}

/-! ### The order of visits -/

mutual

/-- All elements of a tree, each after those below it, from left to right. -/
def postorder : Element → List Element
  | .sequence items => postorderList items ++ [.sequence items]
  | .alternation branches => postorderList branches ++ [.alternation branches]
  | .quantified item quantifier => postorder item ++ [.quantified item quantifier]
  | element => [element]

/-- All elements of a list of trees, each after those below it. -/
def postorderList : List Element → List Element
  | [] => []
  | element :: rest => postorder element ++ postorderList rest

end

theorem postorderList_eq_flatMap (elements : List Element) :
    postorderList elements = elements.flatMap postorder := by
  induction elements with
  | nil => rfl
  | cons element rest ih => rw [postorderList, ih, List.flatMap_cons]

/-- A tree has the same elements in either order. -/
theorem mem_postorder_iff {x element : Element} : x ∈ element.postorder ↔ x ∈ element.walk := by
  have hitems (items : List Element) (ih : ∀ item ∈ items, x ∈ item.postorder ↔ x ∈ item.walk) :
      x ∈ items.flatMap postorder ↔ x ∈ items.flatMap walk := by
    rw [List.mem_flatMap, List.mem_flatMap]
    exact exists_congr fun item => and_congr_right (ih item)
  induction element with
  | literal text => rfl
  | reference identifier kind => rfl
  | sequence items ih =>
    rw [postorder, postorderList_eq_flatMap, walk, walkList_eq_flatMap, List.mem_append,
      List.mem_singleton, List.mem_cons, hitems items ih, or_comm]
  | alternation branches ih =>
    rw [postorder, postorderList_eq_flatMap, walk, walkList_eq_flatMap, List.mem_append,
      List.mem_singleton, List.mem_cons, hitems branches ih, or_comm]
  | quantified item quantifier ih =>
    rw [postorder, walk, List.mem_append, List.mem_singleton, List.mem_cons, or_congr_left ih,
      or_comm]
  | foreign name => rfl

/-! ### Faults of elements -/

/-- What layout needs of an element, apart from those below it: a label has a width, a quantifier
has a meaning, and the variant is known. -/
def Drawable (measure : Measure) : Element → Prop
  | .literal label | .reference label _ =>
    ∃ width, measure label = .ok (some width) ∧ width.IsWidth
  | .quantified _ quantifier => quantifier.isKnown = true
  | .foreign _ => False
  | _ => True

/-- The fault at an element, apart from those at the elements below it. -/
def fault? (measure : Measure) : Element → Option Fault
  | .literal label | .reference label _ => error? (measure.labelWidth label)
  | .quantified _ (.unknown mark) => some (.ofCause (.unknownQuantifier mark))
  | .foreign name => some (.ofCause (.unknownElement (.foreign name)))
  | _ => none

/-- There is no fault at an element iff layout can draw it. -/
theorem fault?_eq_none_iff {x : Element} : x.fault? measure = none ↔ x.Drawable measure := by
  cases x with
  | literal label => exact Measure.error?_labelWidth_eq_none_iff
  | reference label kind => exact Measure.error?_labelWidth_eq_none_iff
  | quantified item quantifier =>
    cases quantifier with
    | unknown mark => simp [fault?, Drawable, Quantifier.isKnown]
    | _ => simp [fault?, Drawable, Quantifier.isKnown]
  | foreign name => simp [fault?, Drawable]
  | _ => simp [fault?, Drawable]

/-- Measures that agree on an element's own label find the same fault at it. -/
theorem fault?_congr {x : Element}
    (h : ∀ caption ∈ x.caption?, measure' caption.2 = measure caption.2) :
    x.fault? measure' = x.fault? measure := by
  cases x with
  | literal label => exact congrArg error? (Measure.labelWidth_congr (h _ rfl))
  | reference label kind => exact congrArg error? (Measure.labelWidth_congr (h _ rfl))
  | quantified item quantifier => cases quantifier <;> rfl
  | _ => rfl

/-! ### Layout of elements -/

/-- A label's box fails only with the label's width. -/
theorem error?_measured {kind : LabelKind} {label : String} :
    error? (Box.measured m measure kind label : Except Fault (Box Unit)) =
      error? (measure.labelWidth label) := by
  rw [Box.measured, error?_bind_of_forall fun _ _ => error?_pure _, Option.or_none]

/-- What a quantifier makes of a box fails only with the quantifier. -/
theorem error?_quantifiedBox (box : Box Unit) (item : Element) (quantifier : Quantifier) :
    error? (quantifiedBox m box quantifier) = (quantified item quantifier).fault? measure := by
  cases quantifier <;> rfl

/-- An element is laid out up to the first fault below it or at it, by induction over the
element. -/
theorem error?_toBox {element : Element} (h : .alternation [] ∉ element.walk) :
    error? (element.toBox m measure) = element.postorder.findSome? (fault? measure) := by
  induction element with
  | literal text =>
    rw [toBox, error?_measured]
    exact List.findSome?_singleton.symm
  | reference identifier kind =>
    rw [toBox, error?_measured]
    exact List.findSome?_singleton.symm
  | sequence items ih =>
    rw [walk, walkList_eq_flatMap, List.mem_cons, not_or, List.mem_flatMap] at h
    have hitems := error?_mapM_of_forall fun item hitem =>
      ih item hitem fun hmem => h.2 ⟨item, hitem, hmem⟩
    rw [toBox, toBoxes_eq_mapM, error?_bind_of_forall fun _ _ => error?_pure _, hitems, postorder,
      postorderList_eq_flatMap, List.findSome?_append]
    rfl
  | alternation branches ih =>
    rw [walk, walkList_eq_flatMap, List.mem_cons, not_or, List.mem_flatMap] at h
    have hitems := error?_mapM_of_forall fun branch hbranch =>
      ih branch hbranch fun hmem => h.2 ⟨branch, hbranch, hmem⟩
    have hbranches : branches ≠ [] := fun heq => h.1 (heq ▸ rfl)
    -- there is a main branch, because there is a branch
    have hbox (boxes : List (Box Unit)) (hboxes : branches.mapM (toBox m measure) = .ok boxes) :
        error? (Box.ofBranches m 0 boxes) = none := by
      obtain ⟨first, rest, rfl⟩ :=
        List.exists_cons_of_ne_nil (ne_nil_of_mapM_eq_ok hboxes hbranches)
      rfl
    rw [toBox, toBoxes_eq_mapM, error?_bind_of_forall hbox, hitems, postorder,
      postorderList_eq_flatMap, List.findSome?_append]
    rfl
  | quantified item quantifier ih =>
    rw [walk, List.mem_cons, not_or] at h
    rw [toBox, error?_bind_of_forall fun box _ => error?_quantifiedBox box item quantifier, ih h.2,
      postorder, List.findSome?_append, List.findSome?_singleton]
  | foreign name => rfl

/-- Measures that agree on all labels of an element lay it out alike. -/
theorem toBox_congr {element : Element}
    (h : ∀ caption ∈ element.captions, measure' caption.2 = measure caption.2) :
    element.toBox m measure' = element.toBox m measure := by
  induction element with
  | literal text =>
    rw [toBox, toBox, Box.measured, Box.measured,
      Measure.labelWidth_congr (h (.terminal, text) (List.mem_singleton_self _))]
  | reference identifier kind =>
    rw [toBox, toBox, Box.measured, Box.measured,
      Measure.labelWidth_congr (h (.rule kind, identifier) (List.mem_singleton_self _))]
  | sequence items ih =>
    rw [captions_sequence, List.forall_mem_flatMap] at h
    rw [toBox, toBox, toBoxes_eq_mapM, toBoxes_eq_mapM,
      mapM_congr fun item hitem => ih item hitem (h item hitem)]
  | alternation branches ih =>
    rw [captions_alternation, List.forall_mem_flatMap] at h
    rw [toBox, toBox, toBoxes_eq_mapM, toBoxes_eq_mapM,
      mapM_congr fun branch hbranch => ih branch hbranch (h branch hbranch)]
  | quantified item quantifier ih =>
    rw [captions_quantified] at h
    rw [toBox, toBox, ih h]
  | foreign name => rfl

end Element

/-- A production is laid out up to the first fault in its alternatives, from left to right. -/
theorem error?_alternativesBox {m : Metrics} {measure : Measure}
    {alternatives : List (List Element)}
    (h : ∀ alternative ∈ alternatives, ∀ element ∈ alternative, .alternation [] ∉ element.walk) :
    error? (alternativesBox m measure alternatives) =
      (alternatives.flatMap fun alternative => alternative.flatMap Element.postorder).findSome?
        (Element.fault? measure) := by
  have hlines : error? (alternatives.mapM fun alternative => do
        return Box.ofItems m .line (← Element.toBoxes m measure alternative)) =
      (alternatives.flatMap fun alternative => alternative.flatMap Element.postorder).findSome?
        (Element.fault? measure) := by
    refine error?_mapM_of_forall fun alternative halternative => ?_
    rw [error?_bind_of_forall fun _ _ => error?_pure _, Option.or_none, Element.toBoxes_eq_mapM]
    exact error?_mapM_of_forall fun element helement =>
      Element.error?_toBox (h alternative halternative element helement)
  rw [alternativesBox, error?_bind_of_forall (e := none) ?_, Option.or_none, hlines]
  rintro (_ | ⟨first, _ | ⟨second, rest⟩⟩) - <;> rfl

/-! ### Faults of entries -/

/-- An error on the width of a label that does not say which entry it concerns. -/
def Fault.LacksEntry (fault : Fault) : Prop :=
  ∃ cause source, fault = .grammar ⟨cause, none, source⟩ ∧ cause.errorClass = .unmeasurable

/-- A fault that says where it is, or is not about a width, stays as it is. -/
theorem Fault.inEntry_of_not_lacksEntry {fault : Fault} (h : ¬fault.LacksEntry) (entry : Entry) :
    fault.inEntry entry = fault := by
  cases fault with
  | grammar error =>
    obtain ⟨cause, identifier, source⟩ := error
    rw [inEntry, mapGrammar]
    split_ifs with hclass
    · cases identifier with
      | none => exact absurd ⟨cause, source, rfl, hclass⟩ h
      | some identifier => rfl
    · rfl
  | _ => rfl

/-- An error on a width gets the name of the entry it was met in. -/
theorem Fault.inEntry_of_unmeasurable {cause : Cause} (h : cause.errorClass = .unmeasurable)
    (source : Option String) (entry : Entry) :
    (Fault.grammar ⟨cause, none, source⟩).inEntry entry =
      .grammar ⟨cause, some entry.identifier, source⟩ := by
  rw [inEntry, mapGrammar, if_pos h]
  rfl

namespace Entry

variable {m : Metrics} {measure measure' : Measure} {entry : Entry} {x : Element} {fault : Fault}

/-- All elements of an entry, each after those below it, from left to right. -/
def postorder (entry : Entry) : List Element :=
  entry.alternatives.flatMap fun alternative => alternative.flatMap Element.postorder

/-- Layout meets an element when it can draw all that it meets before. -/
def Meets (entry : Entry) (measure : Measure) (x : Element) : Prop :=
  ∃ before after, entry.postorder = before ++ x :: after ∧ ∀ y ∈ before, y.Drawable measure

/-- The fault that ends the layout of an entry at an element of it.  An error on the width of a
label gets the name of the entry; any other fault stays as it is.  A quantifier without a meaning
and an element of an unknown variant make the entry malformed. -/
inductive StopsAt (entry : Entry) (measure : Measure) : Element → Fault → Prop
  | width {x : Element} {kind : LabelKind} {label : String} {cause : Cause}
    {source : Option String} (caption : x.caption? = some (kind, label))
    (fails : measure.Fails label (.grammar ⟨cause, none, source⟩))
    (unmeasurable : cause.errorClass = .unmeasurable) :
    StopsAt entry measure x (.grammar ⟨cause, some entry.identifier, source⟩)
  | label {x : Element} {kind : LabelKind} {label : String} {fault : Fault}
    (caption : x.caption? = some (kind, label)) (fails : measure.Fails label fault)
    (complete : ¬fault.LacksEntry) : StopsAt entry measure x fault
  | quantifier (item : Element) (mark : String)
    (malformed : (Cause.unknownQuantifier mark).errorClass = .malformed) :
    StopsAt entry measure (.quantified item (.unknown mark)) (.ofCause (.unknownQuantifier mark))
  | foreign (name : String)
    (malformed : (Cause.unknownElement (.foreign name)).errorClass = .malformed) :
    StopsAt entry measure (.foreign name) (.ofCause (.unknownElement (.foreign name)))

/-- An entry has the same elements in either order. -/
theorem mem_postorder_iff : x ∈ entry.postorder ↔ x ∈ entry.walk := by
  simp only [postorder, walk, Element.walkList_eq_flatMap, List.mem_flatMap,
    Element.mem_postorder_iff]

/-- A label without a width ends the layout with its own failure. -/
theorem stopsAt_of_fails {kind : LabelKind} {label : String}
    (caption : x.caption? = some (kind, label)) (fails : measure.Fails label fault) :
    entry.StopsAt measure x (fault.inEntry entry) := by
  by_cases hlacks : fault.LacksEntry
  · obtain ⟨cause, source, rfl, hclass⟩ := hlacks
    rw [Fault.inEntry_of_unmeasurable hclass]
    exact .width caption fails hclass
  · rw [Fault.inEntry_of_not_lacksEntry hlacks]
    exact .label caption fails hlacks

/-- At an element with a label, the fault is the failure of the measure. -/
theorem exists_fails_of_fault? {kind : LabelKind} {label : String}
    (caption : x.caption? = some (kind, label)) :
    x.fault? measure = some fault ↔ measure.Fails label fault := by
  cases x with
  | literal text =>
    obtain ⟨-, rfl⟩ := Prod.mk.inj (Option.some.inj caption)
    exact Measure.error?_labelWidth_eq_some_iff
  | reference identifier kind' =>
    obtain ⟨-, rfl⟩ := Prod.mk.inj (Option.some.inj caption)
    exact Measure.error?_labelWidth_eq_some_iff
  | _ => cases caption

/-- The faults that layout ends with are those at elements, with the name of the entry. -/
theorem stopsAt_iff :
    entry.StopsAt measure x fault ↔
      ∃ fault', x.fault? measure = some fault' ∧ fault'.inEntry entry = fault := by
  constructor
  · intro h
    cases h with
    | width caption fails unmeasurable =>
      exact ⟨_, (exists_fails_of_fault? caption).mpr fails,
        Fault.inEntry_of_unmeasurable unmeasurable _ entry⟩
    | label caption fails complete =>
      exact ⟨_, (exists_fails_of_fault? caption).mpr fails,
        Fault.inEntry_of_not_lacksEntry complete entry⟩
    | quantifier item mark malformed => exact ⟨_, rfl, rfl⟩
    | foreign name malformed => exact ⟨_, rfl, rfl⟩
  · rintro ⟨fault', hfault, rfl⟩
    cases x with
    | literal text =>
      exact stopsAt_of_fails rfl ((exists_fails_of_fault? rfl).mp hfault)
    | reference identifier kind =>
      exact stopsAt_of_fails rfl ((exists_fails_of_fault? rfl).mp hfault)
    | quantified item quantifier =>
      cases quantifier with
      | unknown mark =>
        obtain rfl := Option.some.inj hfault
        exact .quantifier item mark rfl
      | _ => cases hfault
    | foreign name =>
      obtain rfl := Option.some.inj hfault
      exact .foreign name rfl
    | _ => cases hfault

/-- An entry is laid out up to its first fault, which gets the name of the entry. -/
theorem error?_layout (h : .alternation [] ∉ entry.walk) :
    error? (entry.layout m measure) =
      (entry.postorder.findSome? (Element.fault? measure)).map (·.inEntry entry) := by
  have halternatives : ∀ alternative ∈ entry.alternatives, ∀ element ∈ alternative,
      .alternation [] ∉ element.walk := by
    intro alternative halternative element helement hmem
    rw [walk, List.mem_flatMap] at h
    refine h ⟨alternative, halternative, ?_⟩
    rw [Element.walkList_eq_flatMap]
    exact List.mem_flatMap_of_mem helement hmem
  rw [layout, error?_bind_of_forall fun _ _ => error?_pure _, Option.or_none, error?_mapError,
    error?_alternativesBox halternatives]
  rfl

/-- Measures that agree on all labels of an entry lay it out alike. -/
theorem layout_congr (h : ∀ caption ∈ entry.captions, measure' caption.2 = measure caption.2) :
    entry.layout m measure' = entry.layout m measure := by
  rw [captions_eq_flatMap, List.forall_mem_flatMap] at h
  have hlines : ∀ alternative ∈ entry.alternatives,
      Element.toBoxes m measure' alternative = Element.toBoxes m measure alternative := by
    intro alternative halternative
    have hcaptions := List.forall_mem_flatMap.mp (h alternative halternative)
    rw [Element.toBoxes_eq_mapM, Element.toBoxes_eq_mapM]
    exact mapM_congr fun element helement => Element.toBox_congr (hcaptions element helement)
  have hbox : alternativesBox m measure' entry.alternatives =
      alternativesBox m measure entry.alternatives := by
    rw [alternativesBox, alternativesBox]
    congr 1
    exact mapM_congr fun alternative halternative => by rw [hlines alternative halternative]
  rw [layout, layout, hbox]

/-- As long as layout can draw what it meets, it meets what comes next. -/
theorem meets_of_mem {before after : List Element} (hsplit : entry.postorder = before ++ after)
    (hbefore : ∀ y ∈ before, y.Drawable measure) (hx : x ∈ before) : entry.Meets measure x := by
  obtain ⟨first, second, rfl⟩ := List.append_of_mem hx
  rw [List.append_assoc, List.cons_append] at hsplit
  exact ⟨first, _, hsplit, fun y hy => hbefore y (List.mem_append_left _ hy)⟩

/-- The first fault is that at the first element which layout meets and cannot draw. -/
theorem findSome?_eq_some_iff_meets :
    entry.postorder.findSome? (Element.fault? measure) = some fault ↔
      ∃ x, entry.Meets measure x ∧ x.fault? measure = some fault := by
  simp only [List.findSome?_eq_some_iff, Element.fault?_eq_none_iff]
  constructor
  · rintro ⟨before, x, after, hsplit, hfault, hbefore⟩
    exact ⟨x, ⟨before, after, hsplit, hbefore⟩, hfault⟩
  · rintro ⟨x, ⟨before, after, hsplit, hbefore⟩, hfault⟩
    exact ⟨before, x, after, hsplit, hfault, hbefore⟩

/-- An entry is laid out iff layout can draw all that is in it. -/
theorem exists_layout_iff (h : .alternation [] ∉ entry.walk) :
    (∃ d, entry.layout m measure = .ok d) ↔ ∀ x ∈ entry.walk, x.Drawable measure := by
  rw [← error?_eq_none_iff, error?_layout h, Option.map_eq_none_iff, List.findSome?_eq_none_iff]
  simp only [Element.fault?_eq_none_iff, mem_postorder_iff]

/-- Layout ends with a fault iff it stops with it at some element it meets. -/
theorem layout_eq_error_iff (h : .alternation [] ∉ entry.walk) :
    entry.layout m measure = .error fault ↔
      ∃ x, entry.Meets measure x ∧ entry.StopsAt measure x fault := by
  rw [← error?_eq_some_iff, error?_layout h, Option.map_eq_some_iff]
  simp only [findSome?_eq_some_iff_meets, stopsAt_iff]
  constructor
  · rintro ⟨fault', ⟨x, hmeets, hx⟩, hfault⟩
    exact ⟨x, hmeets, fault', hx, hfault⟩
  · rintro ⟨x, hmeets, fault', hx, hfault⟩
    exact ⟨fault', ⟨x, hmeets, hx⟩, hfault⟩

/-- A measure that says the same on all labels that are met leads to the same first fault. -/
theorem findSome?_congr_of_meets
    (h : ∀ x, entry.Meets measure x →
      ∀ caption ∈ x.caption?, measure' caption.2 = measure caption.2)
    (hfault : entry.postorder.findSome? (Element.fault? measure) = some fault) :
    entry.postorder.findSome? (Element.fault? measure') = some fault := by
  obtain ⟨before, x, after, hsplit, hx, hbefore⟩ := List.findSome?_eq_some_iff.mp hfault
  have hdrawable : ∀ y ∈ before, y.Drawable measure :=
    fun y hy => Element.fault?_eq_none_iff.mp (hbefore y hy)
  have hsame (y : Element) (hy : entry.Meets measure y) : y.fault? measure' = y.fault? measure :=
    Element.fault?_congr (h y hy)
  refine List.findSome?_eq_some_iff.mpr ⟨before, x, after, hsplit, ?_, fun y hy => ?_⟩
  · rw [hsame x ⟨before, after, hsplit, hdrawable⟩, hx]
  · rw [hsame y (meets_of_mem hsplit hdrawable hy), hbefore y hy]

/-- Layout depends on its measure by the labels it meets alone. -/
theorem layout_congr_of_meets (hbranches : .alternation [] ∉ entry.walk)
    (h : ∀ x, entry.Meets measure x →
      ∀ caption ∈ x.caption?, measure' caption.2 = measure caption.2) :
    entry.layout m measure' = entry.layout m measure := by
  cases hfirst : entry.postorder.findSome? (Element.fault? measure) with
  | none =>
    -- without a fault all labels are met
    have hdrawable : ∀ y ∈ entry.postorder, y.Drawable measure :=
      fun y hy => Element.fault?_eq_none_iff.mp (List.findSome?_eq_none_iff.mp hfirst y hy)
    refine layout_congr fun caption hcaption => ?_
    obtain ⟨x, hx, hxcaption⟩ := List.mem_filterMap.mp hcaption
    exact h x (meets_of_mem (List.append_nil _).symm hdrawable (mem_postorder_iff.mpr hx)) caption
      hxcaption
  | some fault =>
    have hfault : error? (entry.layout m measure) = some (fault.inEntry entry) := by
      rw [error?_layout hbranches, hfirst]
      rfl
    have hfault' : error? (entry.layout m measure') = some (fault.inEntry entry) := by
      rw [error?_layout hbranches, findSome?_congr_of_meets h hfirst]
      rfl
    rw [error?_eq_some_iff.mp hfault, error?_eq_some_iff.mp hfault']

/-- No alternation of an entry in normal form is without branches. -/
theorem Normal.alternation_nil_notMem (h : entry.Normal) : .alternation [] ∉ entry.walk := by
  intro hmem
  obtain ⟨alternative, halternative, hmem⟩ := List.mem_flatMap.mp hmem
  rw [Element.walkList_eq_flatMap] at hmem
  obtain ⟨element, helement, hmem⟩ := List.mem_flatMap.mp hmem
  have hnormal := (h.normal alternative halternative element helement).of_mem_walk hmem
  cases hnormal with
  | alternation nonempty sequences normal => exact nonempty rfl

/-- An entry whose alternations have branches is laid out iff layout can draw all that is in it.
Otherwise layout ends with the fault of the first element that it cannot draw.  It depends on the
measure by the labels alone that it meets. -/
theorem layout_first_fault (h : .alternation [] ∉ entry.walk) :
    ((∃ d, entry.layout m measure = .ok d) ↔ ∀ x ∈ entry.walk, x.Drawable measure) ∧
      (∀ fault, entry.layout m measure = .error fault ↔
        ∃ x, entry.Meets measure x ∧ entry.StopsAt measure x fault) ∧
      ∀ measure' : Measure, (∀ x, entry.Meets measure x →
          ∀ caption ∈ x.caption?, measure' caption.2 = measure caption.2) →
        entry.layout m measure' = entry.layout m measure :=
  ⟨exists_layout_iff h, fun _ => layout_eq_error_iff h, fun _ => layout_congr_of_meets h⟩

/-- A label without a width comes before the quantifier around it, which has no meaning. -/
theorem layout_first_fault_sample :
    let entry : Entry := ⟨.rule, "list", "", [[.reference "item" none,
      .quantified (.literal "more") (.unknown "!")], [.foreign "end"]]⟩
    let measure : Measure := fun label =>
      .ok (some (if label = "more" then .real .nan else .int 9))
    .alternation [] ∉ entry.walk ∧
      entry.layout .standard measure =
        .error (.grammar (.about "list" (.unmeasurable "more" (some (.real .nan))))) := by
  intro entry measure
  have hbuild : EntryNode.build ⟨.rule, "list", "", [[.reference "item" none,
      .quantified (.literal "more") (.unknown "!")], [.foreign "end"]]⟩ = .ok entry := rfl
  have hbranches : .alternation [] ∉ entry.walk :=
    (EntryNode.normal_of_build hbuild).alternation_nil_notMem
  have hmore : entry.Meets measure (.literal "more") := by
    refine ⟨[.reference "item" none], _, rfl, List.forall_mem_singleton.mpr ?_⟩
    exact ⟨.int 9, rfl, rfl, rfl⟩
  have hstops : entry.StopsAt measure (.literal "more")
      (.grammar (.about "list" (.unmeasurable "more" (some (.real .nan))))) :=
    .width rfl (.unmeasurable rfl (.infinite rfl)) rfl
  exact ⟨hbranches, ((layout_first_fault hbranches).2.1 _).mpr ⟨_, hmore, hstops⟩⟩

end Entry

end SyntaxDiagram
