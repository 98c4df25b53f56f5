import SyntaxDiagram.Proofs.Element.Equality
import SyntaxDiagram.Proofs.Element.Language
import SyntaxDiagram.Proofs.Element.Normal

/-!
# Building keeps the language

A description stands for words of its own (`Node.language`), and what is built of it stands for the
same ones (`Node.language_of_build`): the sequence around a branch changes nothing, and neither does
a quantifier that is absorbed by an equal one (`Quantifier.language_language`).  Building fails with
the error of a part that cannot be built by itself (`Node.exists_flaw_of_build_eq_error`), and only
if there is one (`Node.flaw?_eq_none_of_build`).  What is built can be described part by part and
built anew (`Element.build_toNode`).
-/

namespace SyntaxDiagram

/-! ### Quantifiers -/

/-- Repeating what can be repeated already adds no words. -/
theorem Quantifier.language_language (L : Language Token) (quantifier : Quantifier) :
    quantifier.language (quantifier.language L) = quantifier.language L := by
  cases quantifier with
  | optional => rw [language, language, ← add_assoc, add_idem]
  | star => rw [language, language, kstar_idem]
  | plus =>
    -- the words between are repetitions themselves
    have hle : L * KStar.kstar L ≤ KStar.kstar L := mul_kstar_le_kstar
    have hge : L ≤ L * KStar.kstar L := by
      calc L = L * 1 := (mul_one L).symm
        _ ≤ L * KStar.kstar L := mul_le_mul_right one_le_kstar L
    have hstar : KStar.kstar (L * KStar.kstar L) = KStar.kstar L := by
      refine le_antisymm ?_ (kstar_mono hge)
      calc KStar.kstar (L * KStar.kstar L) ≤ KStar.kstar (KStar.kstar L) := kstar_mono hle
        _ = KStar.kstar L := kstar_idem L
    rw [language, language, hstar, mul_assoc, kstar_mul_kstar]
  | unknown mark => rfl

/-- A known quantifier absorbs itself. -/
theorem Quantifier.absorbs_self {quantifier : Quantifier} (h : quantifier.isKnown = true) :
    quantifier.absorbs quantifier = true := by
  cases quantifier with
  | unknown mark => exact absurd h (by simp [isKnown])
  | _ => rfl

namespace Element

/-! ### Elements -/

/-- An element is of a known variant, and its quantifier has a meaning if it is quantified. -/
def IsKnown : Element → Prop
  | .quantified _ quantifier => quantifier.isKnown = true
  | .foreign _ => False
  | _ => True

/-- An element as a branch: a sequence as it is, anything else as a sequence of one element. -/
def toBranch : Element → Element
  | .sequence items => .sequence items
  | single => .sequence [single]

/-- Wrapping an element as a branch keeps its language. -/
theorem language_toBranch (element : Element) : element.toBranch.language = element.language := by
  cases element with
  | sequence items => rfl
  | _ => simp only [toBranch, language, sequenceLanguage, mul_one]

/-- What holds of every sequence and all within an element holds within its branch. -/
theorem forall_mem_walk_toBranch {P : Element → Prop} (hP : ∀ items, P (.sequence items))
    {element : Element} (h : ∀ x ∈ element.walk, P x) : ∀ x ∈ element.toBranch.walk, P x := by
  cases element with
  | sequence items => exact h
  | _ =>
    rw [toBranch, walk, walkList_eq_flatMap, List.flatMap_singleton, List.forall_mem_cons]
    · exact ⟨hP _, h⟩
    · simp

/-- A quantified element carries the quantifier it was given, whatever is left inside. -/
theorem exists_quantify (element : Element) (quantifier : Quantifier) :
    ∃ inner, element.quantify quantifier = .quantified inner quantifier := by
  unfold quantify
  split
  · split
    · exact ⟨_, rfl⟩
    · exact ⟨_, rfl⟩
  · exact ⟨_, rfl⟩

/-- Collapsing quantifiers does not change the language. -/
theorem language_quantify (element : Element) (quantifier : Quantifier) :
    (element.quantify quantifier).language = quantifier.language element.language := by
  rcases element.quantify_eq_self_or_settled quantifier with hself | hsettled
  · -- the quantifier is there already
    obtain ⟨inner, hinner⟩ := element.exists_quantify quantifier
    rw [hself] at hinner
    rw [hself, hinner, language, Quantifier.language_language]
  · rw [quantify_of_settled hsettled, language]

/-- What holds under the quantifier and all within an element holds within the quantified one. -/
theorem forall_mem_walk_quantify {P : Element → Prop} {quantifier : Quantifier}
    (hP : ∀ item, P (.quantified item quantifier)) {element : Element}
    (h : ∀ x ∈ element.walk, P x) : ∀ x ∈ (element.quantify quantifier).walk, P x := by
  rcases element.quantify_eq_self_or_settled quantifier with hself | hsettled
  · rwa [hself]
  · rw [quantify_of_settled hsettled, walk, List.forall_mem_cons]
    exact ⟨hP element, h⟩

/-! ### What builders make of items -/

/-- A sequence is built iff every item is an element and there is at least one. -/
theorem ofSequence_eq_ok_iff {items : List Item} {element : Element} :
    ofSequence items = .ok element ↔
      ∃ elements, items.mapM Item.toElement = .ok elements ∧ elements ≠ [] ∧
        element = .sequence elements := by
  refine ⟨exists_of_ofSequence, ?_⟩
  rintro ⟨elements, helements, hnonempty, rfl⟩
  cases items with
  | nil => exact absurd (pure_eq_ok_iff.mp helements).symm hnonempty
  | cons first rest => exact map_eq_ok_iff.mpr ⟨elements, helements, rfl⟩

/-- A sequence is refused because it is empty, or with the error of its first bad item. -/
theorem ofSequence_eq_error {items : List Item} {error : GrammarError}
    (h : ofSequence items = .error error) :
    items = [] ∧ error = .of .emptySequence ∨ items.mapM Item.toElement = .error error := by
  cases items with
  | nil => exact Or.inl ⟨rfl, (Except.error.inj h).symm⟩
  | cons first rest => exact Or.inr (map_eq_error_iff.mp h)

/-- Making branches of items is making elements of them first and wrapping each. -/
theorem mapM_toBranch (items : List Item) :
    items.mapM Item.toBranch = (items.mapM Item.toElement).map (List.map toBranch) := by
  have hmap : (items.map id).mapM Item.toBranch = _ :=
    mapM_map_of_forall fun item _ => (rfl : item.toBranch = item.toElement.map toBranch)
  rwa [List.map_id] at hmap

/-- An alternation is built iff every item is an element and there is at least one; each is
wrapped. -/
theorem ofAlternation_eq_ok_iff {items : List Item} {element : Element} :
    ofAlternation items = .ok element ↔
      ∃ elements, items.mapM Item.toElement = .ok elements ∧ elements ≠ [] ∧
        element = .alternation (elements.map toBranch) := by
  constructor
  · intro h
    obtain ⟨branches, hbranches, hnonempty, rfl⟩ := exists_of_ofAlternation h
    rw [mapM_toBranch, map_eq_ok_iff] at hbranches
    obtain ⟨elements, helements, rfl⟩ := hbranches
    exact ⟨elements, helements, by simpa using hnonempty, rfl⟩
  · rintro ⟨elements, helements, hnonempty, rfl⟩
    cases items with
    | nil => exact absurd (pure_eq_ok_iff.mp helements).symm hnonempty
    | cons first rest =>
      rw [ofAlternation, mapM_toBranch, helements]
      · rfl
      · simp

/-- An alternation is refused because it is empty, or with the error of its first bad item. -/
theorem ofAlternation_eq_error {items : List Item} {error : GrammarError}
    (h : ofAlternation items = .error error) :
    items = [] ∧ error = .of .emptyAlternation ∨ items.mapM Item.toElement = .error error := by
  cases items with
  | nil => exact Or.inl ⟨rfl, (Except.error.inj h).symm⟩
  | cons first rest =>
    have hbranches := map_eq_error_iff.mp h
    rw [mapM_toBranch, map_eq_error_iff] at hbranches
    exact Or.inr hbranches

/-! ### Elements described -/

mutual

/-- The description of an element, part by part. -/
def toNode : Element → Node
  | .literal text => .literal text
  | .reference identifier kind => .reference identifier kind
  | .sequence items => .sequence (toNodes items)
  | .alternation branches => .alternation (toNodes branches)
  | .quantified item quantifier => .quantified (toNode item) quantifier
  | .foreign name => .foreign name

/-- The descriptions of some elements. -/
def toNodes : List Element → List Node
  | [] => []
  | element :: rest => toNode element :: toNodes rest

end

theorem toNodes_eq_map (elements : List Element) : toNodes elements = elements.map toNode := by
  induction elements with
  | nil => rfl
  | cons element rest ih => rw [toNodes, ih, List.map_cons]

end Element

namespace Node

/-! ### Parts of descriptions -/

mutual

/-- All parts of a description, each before those below it, from left to right. -/
def walk : Node → List Node
  | .sequence items => .sequence items :: walkList items
  | .alternation branches => .alternation branches :: walkList branches
  | .quantified item quantifier => .quantified item quantifier :: walk item
  | node => [node]

/-- All parts of some descriptions. -/
def walkList : List Node → List Node
  | [] => []
  | node :: rest => walk node ++ walkList rest

end

theorem walkList_eq_flatMap (nodes : List Node) : walkList nodes = nodes.flatMap walk := by
  induction nodes with
  | nil => rfl
  | cons node rest ih => rw [walkList, ih, List.flatMap_cons]

/-- Why a description cannot be built, apart from the parts below it: there is nothing in a sequence
or in an alternation, or it is a plain value other than a text. -/
def flaw? : Node → Option Cause
  | .datum (.text _) => none
  | .datum value => some (.notElement value)
  | .sequence [] => some .emptySequence
  | .alternation [] => some .emptyAlternation
  | _ => none

/-- A description is of a known variant, and its quantifier has a meaning if it is quantified. -/
def IsKnown : Node → Prop
  | .quantified _ quantifier => quantifier.isKnown = true
  | .foreign _ => False
  | _ => True

mutual

/-- The words that a description stands for. A value that is no element has none. -/
def language : Node → Language Token
  | .datum (.text text) => {[.literal text]}
  | .datum _ => 0
  | .literal text => {[.literal text]}
  | .reference identifier _ => {[.reference identifier]}
  | .sequence items => sequenceLanguage items
  | .alternation branches => choiceLanguage branches
  | .quantified item quantifier => quantifier.language (language item)
  | .foreign _ => 0

/-- The words of descriptions one after the other. -/
def sequenceLanguage : List Node → Language Token
  | [] => 1
  | node :: rest => language node * sequenceLanguage rest

/-- The words of any of some descriptions. -/
def choiceLanguage : List Node → Language Token
  | [] => 0
  | node :: rest => language node + choiceLanguage rest

end

/-- The language of nodes in a row is the product of theirs. -/
theorem sequenceLanguage_eq_prod (nodes : List Node) :
    sequenceLanguage nodes = (nodes.map language).prod := by
  induction nodes with
  | nil => rfl
  | cons node rest ih => rw [sequenceLanguage, ih, List.map_cons, List.prod_cons]

/-- The language of a choice of nodes is the sum of theirs. -/
theorem choiceLanguage_eq_sum (nodes : List Node) :
    choiceLanguage nodes = (nodes.map language).sum := by
  induction nodes with
  | nil => rfl
  | cons node rest ih => rw [choiceLanguage, ih, List.map_cons, List.sum_cons]

/-! ### Building part by part -/

section

variable {node : Node} {nodes : List Node} {quantifier : Quantifier} {element : Element}
  {error : GrammarError}

/-- Reading all items before the first is checked gives the same elements as building each. -/
theorem toItems_mapM_eq_ok_iff {elements : List Element} :
    (∃ items, toItems nodes = .ok items ∧ items.mapM Item.toElement = .ok elements) ↔
      nodes.mapM build = .ok elements := by
  simp only [toItems_eq_mapM, mapM_eq_ok_iff]
  constructor
  · rintro ⟨items, hitems, helements⟩
    induction hitems generalizing elements with
    | nil =>
      cases helements
      exact .nil
    | cons hitem _ ih =>
      cases helements with
      | cons helement hrest => exact .cons (bind_eq_ok_iff.mpr ⟨_, hitem, helement⟩) (ih hrest)
  · intro h
    induction h with
    | nil => exact ⟨[], .nil, .nil⟩
    | cons hbuild _ ih =>
      obtain ⟨item, hitem, helement⟩ := bind_eq_ok_iff.mp hbuild
      obtain ⟨items, hitems, helements⟩ := ih
      exact ⟨item :: items, .cons hitem hitems, .cons helement helements⟩

/-- What fails with items that are all read before the first is checked is empty, or fails in
building an item. -/
theorem eq_nil_or_exists_of_toItems {cause : Cause} {f : List Item → Except GrammarError Element}
    (hf : ∀ items, f items = .error error →
      items = [] ∧ error = .of cause ∨ items.mapM Item.toElement = .error error)
    (h : toItems nodes >>= f = .error error) :
    nodes = [] ∧ error = .of cause ∨ ∃ node ∈ nodes, node.build = .error error := by
  rw [toItems_eq_mapM, bind_eq_error_iff] at h
  rcases h with h | ⟨items, hitems, h⟩
  · obtain ⟨before, node, after, _, rfl, -, hnode⟩ := mapM_eq_error_iff.mp h
    exact Or.inr ⟨node, by simp, bind_eq_error_iff.mpr (Or.inl hnode)⟩
  · rcases hf items h with ⟨rfl, hcause⟩ | h
    · refine Or.inl ⟨?_, hcause⟩
      by_contra hnodes
      exact ne_nil_of_mapM_eq_ok hitems hnodes rfl
    · obtain ⟨before, item, after, _, rfl, -, hitem⟩ := mapM_eq_error_iff.mp h
      obtain ⟨node, hnode, hread⟩ := exists_of_mem_of_mapM_eq_ok hitems (y := item) (by simp)
      exact Or.inr ⟨node, hnode, bind_eq_error_iff.mpr (Or.inr ⟨item, hread, hitem⟩)⟩

/-- A sequence node is built from its nodes as items. -/
theorem build_sequence : (sequence nodes).build = toItems nodes >>= Element.ofSequence := by
  rw [build, toItem]
  cases toItems nodes with
  | error error => rfl
  | ok items =>
    show (do return Item.element (← Element.ofSequence items)) >>= Item.toElement =
      Element.ofSequence items
    cases Element.ofSequence items <;> rfl

/-- An alternation node is built from its nodes as items. -/
theorem build_alternation :
    (alternation nodes).build = toItems nodes >>= Element.ofAlternation := by
  rw [build, toItem]
  cases toItems nodes with
  | error error => rfl
  | ok items =>
    show (do return Item.element (← Element.ofAlternation items)) >>= Item.toElement =
      Element.ofAlternation items
    cases Element.ofAlternation items <;> rfl

theorem build_quantified :
    (quantified node quantifier).build = node.build.map (·.quantify quantifier) := by
  rw [build, build, toItem]
  cases node.toItem with
  | error error => rfl
  | ok item =>
    show (do return Item.element (← Element.ofQuantified item quantifier)) >>= Item.toElement =
      item.toElement.map (·.quantify quantifier)
    rw [Element.ofQuantified]
    cases item.toElement <;> rfl

/-- A sequence node is built iff its nodes are and there is at least one. -/
theorem build_sequence_eq_ok_iff :
    (sequence nodes).build = .ok element ↔
      ∃ elements, nodes.mapM build = .ok elements ∧ elements ≠ [] ∧
        element = .sequence elements := by
  rw [build_sequence, bind_eq_ok_iff]
  simp only [Element.ofSequence_eq_ok_iff, ← toItems_mapM_eq_ok_iff]
  grind

/-- An alternation node is built iff its nodes are and there is at least one. -/
theorem build_alternation_eq_ok_iff :
    (alternation nodes).build = .ok element ↔
      ∃ elements, nodes.mapM build = .ok elements ∧ elements ≠ [] ∧
        element = .alternation (elements.map Element.toBranch) := by
  rw [build_alternation, bind_eq_ok_iff]
  simp only [Element.ofAlternation_eq_ok_iff, ← toItems_mapM_eq_ok_iff]
  grind

/-- A quantified node is built iff the node inside is. -/
theorem build_quantified_eq_ok_iff :
    (quantified node quantifier).build = .ok element ↔
      ∃ inner, node.build = .ok inner ∧ element = inner.quantify quantifier := by
  rw [build_quantified, map_eq_ok_iff]
  simp only [eq_comm]

/-! ### When building fails -/

/-- An error is that of a part which cannot be built by itself. -/
theorem exists_flaw_of_build_eq_error (h : node.build = .error error) :
    ∃ part ∈ node.walk, ∃ cause, part.flaw? = some cause ∧ error = .of cause := by
  induction node with
  | datum value =>
    cases value with
    | text text => cases h
    | _ => exact ⟨_, List.mem_singleton_self _, _, rfl, (Except.error.inj h).symm⟩
  | literal text => cases h
  | reference identifier kind => cases h
  | sequence items ih =>
    rw [build_sequence] at h
    -- either there are no items, or the error is that of one of them
    rcases eq_nil_or_exists_of_toItems (fun _ => Element.ofSequence_eq_error) h with
      ⟨rfl, hcause⟩ | ⟨item, hitem, h⟩
    · exact ⟨_, List.mem_cons_self .., _, rfl, hcause⟩
    · obtain ⟨part, hpart, hcause⟩ := ih item hitem h
      rw [walk, walkList_eq_flatMap]
      exact ⟨part, List.mem_cons_of_mem _ (List.mem_flatMap_of_mem hitem hpart), hcause⟩
  | alternation branches ih =>
    rw [build_alternation] at h
    rcases eq_nil_or_exists_of_toItems (fun _ => Element.ofAlternation_eq_error) h with
      ⟨rfl, hcause⟩ | ⟨branch, hbranch, h⟩
    · exact ⟨_, List.mem_cons_self .., _, rfl, hcause⟩
    · obtain ⟨part, hpart, hcause⟩ := ih branch hbranch h
      rw [walk, walkList_eq_flatMap]
      exact ⟨part, List.mem_cons_of_mem _ (List.mem_flatMap_of_mem hbranch hpart), hcause⟩
  | quantified item quantifier ih =>
    rw [build_quantified, map_eq_error_iff] at h
    obtain ⟨part, hpart, hcause⟩ := ih h
    exact ⟨part, List.mem_cons_of_mem _ hpart, hcause⟩
  | foreign name => cases h

/-- Every flaw a node can have makes it malformed. -/
theorem errorClass_of_flaw? {cause : Cause} (h : node.flaw? = some cause) :
    cause.errorClass = .malformed := by
  unfold flaw? at h
  split at h <;> cases h <;> rfl

/-- What is built has no part that cannot be built by itself. -/
theorem flaw?_eq_none_of_build (h : node.build = .ok element) :
    ∀ part ∈ node.walk, part.flaw? = none := by
  induction node generalizing element with
  | datum value =>
    rw [walk, List.forall_mem_singleton]
    · cases value with
      | text text => rfl
      | _ => cases h
    all_goals simp
  | literal text => exact List.forall_mem_singleton.mpr rfl
  | reference identifier kind => exact List.forall_mem_singleton.mpr rfl
  | sequence items ih =>
    obtain ⟨elements, helements, hnonempty, -⟩ := build_sequence_eq_ok_iff.mp h
    rw [walk, walkList_eq_flatMap, List.forall_mem_cons, List.forall_mem_flatMap]
    refine ⟨?_, fun item hitem => ?_⟩
    · -- nothing is built without items
      cases items with
      | nil => exact absurd (pure_eq_ok_iff.mp helements).symm hnonempty
      | cons item items => rfl
    · obtain ⟨element', hitem'⟩ := exists_ok_of_mapM_eq_ok helements hitem
      exact ih item hitem hitem'
  | alternation branches ih =>
    obtain ⟨elements, helements, hnonempty, -⟩ := build_alternation_eq_ok_iff.mp h
    rw [walk, walkList_eq_flatMap, List.forall_mem_cons, List.forall_mem_flatMap]
    refine ⟨?_, fun branch hbranch => ?_⟩
    · -- nor without branches
      cases branches with
      | nil => exact absurd (pure_eq_ok_iff.mp helements).symm hnonempty
      | cons branch branches => rfl
    · obtain ⟨element', hbranch'⟩ := exists_ok_of_mapM_eq_ok helements hbranch
      exact ih branch hbranch hbranch'
  | quantified item quantifier ih =>
    obtain ⟨inner, hinner, -⟩ := build_quantified_eq_ok_iff.mp h
    rw [walk, List.forall_mem_cons]
    exact ⟨rfl, ih hinner⟩
  | foreign name => exact List.forall_mem_singleton.mpr rfl

/-! ### What is built -/

/-- Building a node keeps its language, by induction over the node. -/
theorem language_of_build (h : node.build = .ok element) : element.language = node.language := by
  induction node generalizing element with
  | datum value =>
    cases value with
    | text text =>
      obtain rfl := Except.ok.inj h
      rfl
    | _ => cases h
  | literal text =>
    obtain rfl := Except.ok.inj h
    rfl
  | reference identifier kind =>
    obtain rfl := Except.ok.inj h
    rfl
  | sequence items ih =>
    obtain ⟨elements, helements, -, rfl⟩ := build_sequence_eq_ok_iff.mp h
    have hmap := map_eq_map_of_mapM_eq_ok helements fun item hitem _ hbuild => ih item hitem hbuild
    rw [Element.language, Element.sequenceLanguage_eq_prod, hmap, language,
      sequenceLanguage_eq_prod]
  | alternation branches ih =>
    obtain ⟨elements, helements, -, rfl⟩ := build_alternation_eq_ok_iff.mp h
    have hmap := map_eq_map_of_mapM_eq_ok helements fun branch hbranch _ hbuild =>
      ih branch hbranch hbuild
    -- being made a branch does not change the language
    have hbranch : Element.language ∘ Element.toBranch = Element.language :=
      funext Element.language_toBranch
    rw [Element.language, Element.choiceLanguage_eq_sum, List.map_map, hbranch, hmap, language,
      choiceLanguage_eq_sum]
  | quantified item quantifier ih =>
    obtain ⟨inner, hinner, rfl⟩ := build_quantified_eq_ok_iff.mp h
    rw [Element.language_quantify, ih hinner, language]
  | foreign name =>
    obtain rfl := Except.ok.inj h
    rfl

/-- What a node is built to is in normal form, by induction over the node. -/
theorem normal_of_build (h : node.build = .ok element) : element.Normal := by
  obtain ⟨item, hitem, helement⟩ := bind_eq_ok_iff.mp h
  exact normal_of_toItem hitem element helement

/-- Of known variants and quantifiers, only such are built. -/
theorem isKnown_of_build (h : node.build = .ok element)
    (hknown : ∀ part ∈ node.walk, part.IsKnown) :
    ∀ x ∈ element.walk, x.IsKnown := by
  induction node generalizing element with
  | datum value =>
    cases value with
    | text text =>
      obtain rfl := Except.ok.inj h
      exact List.forall_mem_singleton.mpr trivial
    | _ => cases h
  | literal text =>
    obtain rfl := Except.ok.inj h
    exact List.forall_mem_singleton.mpr trivial
  | reference identifier kind =>
    obtain rfl := Except.ok.inj h
    exact List.forall_mem_singleton.mpr trivial
  | sequence items ih =>
    rw [walk, walkList_eq_flatMap, List.forall_mem_cons, List.forall_mem_flatMap] at hknown
    obtain ⟨elements, helements, -, rfl⟩ := build_sequence_eq_ok_iff.mp h
    rw [Element.walk, Element.walkList_eq_flatMap, List.forall_mem_cons, List.forall_mem_flatMap]
    exact ⟨trivial, forall_mem_of_mapM_eq_ok helements fun item hitem _ hbuild =>
      ih item hitem hbuild (hknown.2 item hitem)⟩
  | alternation branches ih =>
    rw [walk, walkList_eq_flatMap, List.forall_mem_cons, List.forall_mem_flatMap] at hknown
    obtain ⟨elements, helements, -, rfl⟩ := build_alternation_eq_ok_iff.mp h
    rw [Element.walk, Element.walkList_eq_flatMap, List.forall_mem_cons, List.forall_mem_flatMap,
      List.forall_mem_map]
    -- being made a branch adds a sequence at most
    exact ⟨trivial, forall_mem_of_mapM_eq_ok helements fun branch hbranch _ hbuild =>
      Element.forall_mem_walk_toBranch (fun _ => trivial)
        (ih branch hbranch hbuild (hknown.2 branch hbranch))⟩
  | quantified item quantifier ih =>
    rw [walk, List.forall_mem_cons] at hknown
    obtain ⟨inner, hinner, rfl⟩ := build_quantified_eq_ok_iff.mp h
    exact Element.forall_mem_walk_quantify (fun _ => hknown.1) (ih hinner hknown.2)
  | foreign name => exact absurd (hknown _ (List.mem_singleton_self _)) id

end

end Node

/-- An element in normal form is built from its own description. -/
theorem Element.build_toNode {element : Element} (h : element.Normal) :
    element.toNode.build = .ok element := by
  induction h with
  | literal text => rfl
  | reference identifier kind => rfl
  | @sequence items nonempty _ ih =>
    have hitems : (items.map toNode).mapM Node.build = .ok items := by
      rw [List.mapM_map]
      exact mapM_eq_ok_self ih
    rw [toNode, toNodes_eq_map]
    exact Node.build_sequence_eq_ok_iff.mpr ⟨items, hitems, nonempty, rfl⟩
  | @alternation branches nonempty sequences _ ih =>
    have hbranches : (branches.map toNode).mapM Node.build = .ok branches := by
      rw [List.mapM_map]
      exact mapM_eq_ok_self ih
    have hself : branches.map toBranch = branches := by
      refine (List.map_congr_left fun branch hbranch => ?_).trans (List.map_id _)
      obtain ⟨items, rfl⟩ := sequences branch hbranch
      rfl
    rw [toNode, toNodes_eq_map]
    exact Node.build_alternation_eq_ok_iff.mpr ⟨branches, hbranches, nonempty, by rw [hself]⟩
  | quantified settled _ ih =>
    rw [toNode]
    exact Node.build_quantified_eq_ok_iff.mpr ⟨_, ih, (quantify_of_settled settled).symm⟩
  | foreign name => rfl

namespace Node

/-- Of a description in known variants and quantifiers, building fails iff it has an empty sequence,
an empty alternation or a value that is no element in it, and the error is always that of a
malformed grammar.  What is built stands for the same words.  Its sequences and alternations are not
empty, the branches of its alternations are sequences, and no quantifier in it repeats the one
directly below. Described part by part and built anew, it is found equal to what it was. -/
theorem build_normalizes {node : Node} (hknown : ∀ part ∈ node.walk, part.IsKnown) :
    ((∃ error, node.build = .error error) ↔ ∃ part ∈ node.walk, part.flaw?.isSome) ∧
      (∀ error, node.build = .error error → error.cause.errorClass = .malformed) ∧
      ∀ element, node.build = .ok element →
        element.language = node.language ∧
          (∀ items, .sequence items ∈ element.walk → items ≠ []) ∧
          (∀ branches, .alternation branches ∈ element.walk →
            branches ≠ [] ∧ ∀ branch ∈ branches, ∃ items, branch = .sequence items) ∧
          (∀ inner quantifier quantifier',
            .quantified (.quantified inner quantifier') quantifier ∈ element.walk →
              quantifier ≠ quantifier') ∧
          ∃ again, element.toNode.build = .ok again ∧ Element.equal element again = .ok true := by
  refine ⟨⟨?_, ?_⟩, fun error herror => ?_, fun element hbuild => ?_⟩
  · -- the error comes from a part with a flaw
    rintro ⟨error, herror⟩
    obtain ⟨part, hpart, cause, hcause, -⟩ := exists_flaw_of_build_eq_error herror
    exact ⟨part, hpart, by rw [hcause, Option.isSome_some]⟩
  · -- what is built has no flaw in it
    rintro ⟨part, hpart, hflaw⟩
    cases hbuild : node.build with
    | error error => exact ⟨error, rfl⟩
    | ok element =>
      rw [flaw?_eq_none_of_build hbuild part hpart] at hflaw
      exact absurd hflaw Bool.false_ne_true
  · obtain ⟨part, -, cause, hcause, rfl⟩ := exists_flaw_of_build_eq_error herror
    exact errorClass_of_flaw? hcause
  · -- what is built is in normal form, from which its shape is read off
    have hnormal := normal_of_build hbuild
    have hparts := isKnown_of_build hbuild hknown
    refine ⟨language_of_build hbuild, ?_, ?_, ?_, element, Element.build_toNode hnormal, ?_⟩
    · intro items hitems
      cases hnormal.of_mem_walk hitems with
      | sequence nonempty _ => exact nonempty
    · intro branches hbranches
      cases hnormal.of_mem_walk hbranches with
      | alternation nonempty sequences _ => exact ⟨nonempty, sequences⟩
    · -- a known quantifier absorbs itself, so it is not put on top of an equal one
      rintro inner quantifier _ hquantified rfl
      cases hnormal.of_mem_walk hquantified with
      | quantified settled _ =>
        have habsorbs := Quantifier.absorbs_self (hparts _ hquantified)
        rw [settled inner quantifier rfl] at habsorbs
        exact absurd habsorbs Bool.false_ne_true
    · exact Element.equal_eq_true_iff.mpr ⟨rfl, fun name hname => hparts _ hname⟩

/-- A repetition of a repetition, over a branch that is a text, one that is a sequence and one that
is an optional reference. -/
def repetition : Node :=
  .quantified (.quantified (.alternation [.datum (.text "a"), .sequence [.literal "b"],
    .quantified (.reference "c" none) .optional]) .plus) .plus

/-- An optional sequence with an empty alternation and a number in it. -/
def flawed : Node :=
  .quantified (.sequence [.literal "a", .alternation [], .datum (.number (.int 1))]) .optional

theorem build_normalizes_repetition :
    (∀ part ∈ repetition.walk, part.IsKnown) ∧
      (∃ element, repetition.build = .ok element ∧ element.language = repetition.language ∧
        element = .quantified (.alternation [.sequence [.literal "a"], .sequence [.literal "b"],
          .sequence [.quantified (.reference "c" none) .optional]]) .plus) ∧
      (∀ part ∈ flawed.walk, part.IsKnown) ∧ ∃ error, flawed.build = .error error := by
  have hknown : ∀ part ∈ repetition.walk, part.IsKnown := by
    simp [repetition, walk, walkList, IsKnown, Quantifier.isKnown]
  have hflawed : ∀ part ∈ flawed.walk, part.IsKnown := by
    simp [flawed, walk, walkList, IsKnown, Quantifier.isKnown]
  refine ⟨hknown, ⟨_, rfl, ((build_normalizes hknown).2.2 _ rfl).1, rfl⟩, hflawed, ?_⟩
  refine (build_normalizes hflawed).1.mpr ⟨.alternation [], ?_, rfl⟩
  simp [flawed, walk, walkList]

end Node

end SyntaxDiagram
