import SyntaxDiagram.Entry.Build
import SyntaxDiagram.Sealed

/-!
# What assignments change

Assignments to a built object come one after the other, and each is refused or adds one attribute
(`attempt_spec`).  An object guards the attributes that it has itself and those that are computed
(`Subject.Guards`): they read the same for ever (`keeps_of_guards`).  What it has from its class
alone (`Subject.inheritedNames`) is open to one assignment each: the first value that is assigned is
read ever after (`read?_after`), and that value is guarded like any other.
-/

namespace SyntaxDiagram

/-- The attributes of the model of grammars: what elements, entries and grammars say of
themselves. -/
def modelNames : List String :=
  ["text", "identifier", "kind", "isLeaf", "items", "item", "alternatives", "documentation",
    "isFragment", "name", "rules", "terminals"]

/-- The slots in which the runtime itself keeps the class and all the attributes of an object.  An
object does not hold them among its own attributes, so its guard lets assignments to them pass as
well, and what these replace is the object as a whole. -/
def runtimeSlots : List String :=
  ["__class__", "__dict__", "__weakref__"]

/-- An assignment to an attribute.  Those to a slot of the runtime are left out: after one of them
nothing can be said of any attribute. -/
structure Assignment where
  name : String
  value : Held
  isAttribute : name ∉ runtimeSlots

/-- The value that is the first one assigned to an attribute. -/
def firstValue? (assignments : List Assignment) (name : String) : Option Held :=
  (assignments.find? (·.name == name)).map (·.value)

theorem firstValue?_cons (assignment : Assignment) (rest : List Assignment) (name : String) :
    firstValue? (assignment :: rest) name =
      (if assignment.name = name then some assignment.value else none).or
        (firstValue? rest name) := by
  unfold firstValue?
  rw [List.find?_cons]
  by_cases h : assignment.name = name
  · rw [if_pos h, beq_iff_eq.mpr h]
    rfl
  · rw [if_neg h, beq_false_of_ne h, Option.none_or]

theorem isSome_firstValue?_iff {assignments : List Assignment} {name : String} :
    (firstValue? assignments name).isSome ↔
      ∃ assignment ∈ assignments, assignment.name = name := by
  unfold firstValue?
  rw [Option.isSome_map, List.find?_isSome]
  simp only [beq_iff_eq]

/-- Without an assignment to a name there is no first value for it. -/
theorem firstValue?_eq_none {assignments : List Assignment} {name : String}
    (h : ∀ assignment ∈ assignments, assignment.name ≠ name) :
    firstValue? assignments name = none := by
  rw [← Option.not_isSome_iff_eq_none, isSome_firstValue?_iff]
  rintro ⟨assignment, hmem, hname⟩
  exact h assignment hmem hname

/-- The first assignment to an attribute has none before it. -/
theorem exists_first {assignments : List Assignment} {name : String}
    (h : ∃ assignment ∈ assignments, assignment.name = name) :
    ∃ before assignment later, assignments = before ++ assignment :: later ∧
      assignment.name = name ∧ ∀ earlier ∈ before, earlier.name ≠ name := by
  have hsome : (assignments.find? (·.name == name)).isSome := by
    rw [List.find?_isSome]
    obtain ⟨assignment, hmem, hname⟩ := h
    exact ⟨assignment, hmem, beq_iff_eq.mpr hname⟩
  obtain ⟨assignment, hfind⟩ := Option.isSome_iff_exists.mp hsome
  obtain ⟨hname, before, later, hsplit, hbefore⟩ := List.find?_eq_some_iff_append.mp hfind
  refine ⟨before, assignment, later, hsplit, beq_iff_eq.mp hname, ?_⟩
  intro earlier hmem
  simpa using hbefore earlier hmem

namespace Subject

/-! ### Where attributes come from -/

/-- An attribute that the object has of its own, or one that is computed. -/
def Guards (subject : Subject) (name : String) : Prop :=
  (subject.ownAttributes.lookup name).isSome ∨ (subject.computedAttributes.lookup name).isSome

/-- The attributes that an object has from its class alone: whether an element is a leaf, the kind
of an entry, and that a rule is no fragment.  A terminal says of itself whether it is one. -/
def inheritedNames : Subject → List String
  | .element _ => ["isLeaf"]
  | .entry value =>
    match value.kind with
    | .rule => ["kind", "isFragment"]
    | .terminal _ => ["kind"]
  | .grammar _ => []

variable {subject : Subject} {name : String}

/-- What an object neither has of its own nor computes is not guarded. -/
theorem not_guards_iff : ¬ subject.Guards name ↔
    subject.ownAttributes.lookup name = none ∧ subject.computedAttributes.lookup name = none := by
  unfold Guards
  rw [not_or, Option.not_isSome_iff_eq_none, Option.not_isSome_iff_eq_none]

/-- What an object has from its class alone is what nothing guards. -/
theorem inheritedNames_eq_filter (subject : Subject) : subject.inheritedNames =
    (subject.classAttributes.map Prod.fst).filter fun name =>
      (subject.ownAttributes ++ subject.computedAttributes).all (name != ·.1) := by
  -- each class has fixed names, whatever their values are
  match subject with
  | .element (.literal _) | .element (.reference ..) | .element (.sequence _)
  | .element (.alternation _) | .element (.quantified ..) | .element (.foreign _) => rfl
  | .entry ⟨.rule, _, _, _⟩ | .entry ⟨.terminal _, _, _, _⟩ => rfl
  | .grammar _ => rfl

/-- The names that come from the class alone are those it has and nothing guards. -/
theorem mem_inheritedNames_iff : name ∈ subject.inheritedNames ↔
    ¬ subject.Guards name ∧ (subject.classAttributes.lookup name).isSome := by
  rw [inheritedNames_eq_filter, List.mem_filter, not_guards_iff, List.lookup_eq_none_iff,
    List.lookup_eq_none_iff, List.lookup_isSome_iff, List.all_eq_true, List.forall_mem_append,
    List.mem_map]
  constructor
  · rintro ⟨⟨provided, hmem, rfl⟩, hapart⟩
    exact ⟨hapart, provided, hmem, beq_self_eq_true _⟩
  · rintro ⟨hapart, provided, hmem, hname⟩
    exact ⟨⟨provided, hmem, (beq_iff_eq.mp hname).symm⟩, hapart⟩

/-- What an object has from its class alone belongs to the model. -/
theorem inheritedNames_subset (subject : Subject) : subject.inheritedNames ⊆ modelNames := by
  match subject with
  | .element _ => exact (by decide : ["isLeaf"] ⊆ modelNames)
  | .entry ⟨.rule, _, _, _⟩ => exact (by decide : ["kind", "isFragment"] ⊆ modelNames)
  | .entry ⟨.terminal _, _, _, _⟩ => exact (by decide : ["kind"] ⊆ modelNames)
  | .grammar _ => exact List.nil_subset _

end Subject

namespace Sealed

/-! ### Assignments in a row -/

/-- The object after an assignment, which may be refused. -/
def attempt (object : Sealed) (assignment : Assignment) : Sealed :=
  match object.assign assignment.name assignment.value with
  | .ok changed => changed
  | .error _ => object

/-- The object after some assignments. -/
def after (object : Sealed) (assignments : List Assignment) : Sealed :=
  assignments.foldl attempt object

/-- The assignment ends in an attribute error, and nothing about the object changes. -/
structure Refuses (object : Sealed) (assignment : Assignment) : Prop where
  error : ∃ fault, object.assign assignment.name assignment.value = .error fault ∧
    fault.className = "AttributeError"
  unchanged : object.attempt assignment = object

variable {object : Sealed} {assignments : List Assignment} {name : String}

theorem after_cons (object : Sealed) (assignment : Assignment) (rest : List Assignment) :
    object.after (assignment :: rest) = (object.attempt assignment).after rest :=
  rfl

/-- Assignments take effect one after the other. -/
theorem after_append (object : Sealed) (before later : List Assignment) :
    object.after (before ++ later) = (object.after before).after later :=
  List.foldl_append

/-- The last of some assignments is attempted on the object after those before it. -/
theorem after_concat (object : Sealed) (before : List Assignment) (assignment : Assignment) :
    object.after (before ++ [assignment]) = (object.after before).attempt assignment :=
  after_append object before [assignment]

/-- An assignment that ends in an attribute error changes nothing. -/
theorem refuses_of_error {assignment : Assignment} {fault : Fault}
    (h : object.assign assignment.name assignment.value = .error fault)
    (hclass : fault.className = "AttributeError") : object.Refuses assignment := by
  refine ⟨⟨fault, h, hclass⟩, ?_⟩
  unfold attempt
  rw [h]

/-- An assignment is refused if the attribute is guarded or was assigned already, and else it adds
the attribute to those of the object. -/
theorem attempt_spec (object : Sealed) (assignment : Assignment) :
    ((object.subject.Guards assignment.name ∨ (object.assigned.lookup assignment.name).isSome) ∧
      object.Refuses assignment) ∨
    (¬ object.subject.Guards assignment.name ∧ object.assigned.lookup assignment.name = none) ∧
      object.assign assignment.name assignment.value = .ok (object.attempt assignment) ∧
      object.attempt assignment =
        { object with assigned := object.assigned ++ [(assignment.name, assignment.value)] } := by
  have hdictionary : object.dictionary.lookup assignment.name =
      (object.subject.ownAttributes.lookup assignment.name).or
        (object.assigned.lookup assignment.name) := List.lookup_append
  -- what the object has itself wins over what is computed, and its class is never looked at
  by_cases hpresent : (object.dictionary.lookup assignment.name).isSome
  · have hassign : object.assign assignment.name assignment.value =
        .error (.immutable object.subject.className) := if_pos hpresent
    refine Or.inl ⟨?_, refuses_of_error hassign rfl⟩
    rw [hdictionary, Option.isSome_or, Bool.or_eq_true] at hpresent
    exact hpresent.imp Or.inl id
  · by_cases hcomputed : (object.subject.computedAttributes.lookup assignment.name).isSome
    · have hassign : object.assign assignment.name assignment.value =
          .error (.computedAttribute object.subject.className assignment.name) :=
        (if_neg hpresent).trans (if_pos hcomputed)
      exact Or.inl ⟨Or.inl (Or.inr hcomputed), refuses_of_error hassign rfl⟩
    · have hassign : object.assign assignment.name assignment.value =
          .ok { object with
            assigned := object.assigned ++ [(assignment.name, assignment.value)] } :=
        (if_neg hpresent).trans (if_neg hcomputed)
      have hattempt : object.attempt assignment =
          { object with
            assigned := object.assigned ++ [(assignment.name, assignment.value)] } := by
        unfold attempt
        rw [hassign]
      rw [Option.not_isSome_iff_eq_none] at hcomputed
      rw [Option.not_isSome_iff_eq_none, hdictionary, Option.or_eq_none_iff] at hpresent
      rw [Subject.not_guards_iff, hattempt]
      exact Or.inr ⟨⟨⟨hpresent.1, hcomputed⟩, hpresent.2⟩, hassign, rfl⟩

/-- An assignment is refused iff the attribute is guarded or was assigned before. -/
theorem refuses_iff {assignment : Assignment} : object.Refuses assignment ↔
    object.subject.Guards assignment.name ∨ (object.assigned.lookup assignment.name).isSome := by
  rcases object.attempt_spec assignment with ⟨hpresent, hrefuses⟩ | ⟨hfresh, hassign, -⟩
  · exact ⟨fun _ => hpresent, fun _ => hrefuses⟩
  · constructor
    · intro hrefuses
      obtain ⟨fault, herror, -⟩ := hrefuses.error
      rw [hassign] at herror
      cases herror
    · intro hpresent
      rw [hfresh.2] at hpresent
      exact absurd (hpresent.resolve_right (by decide)) hfresh.1

theorem subject_attempt (object : Sealed) (assignment : Assignment) :
    (object.attempt assignment).subject = object.subject := by
  rcases object.attempt_spec assignment with ⟨-, hrefuses⟩ | ⟨-, -, hattempt⟩
  · rw [hrefuses.unchanged]
  · rw [hattempt]

/-- No assignment reaches what the object is made of. -/
theorem subject_after (object : Sealed) (assignments : List Assignment) :
    (object.after assignments).subject = object.subject := by
  induction assignments generalizing object with
  | nil => rfl
  | cons assignment rest ih => rw [after_cons, ih, subject_attempt]

/-! ### What is read -/

/-- An attempt adds a value only to the name it is for, and only the first time. -/
theorem lookup_assigned_attempt (h : ¬ object.subject.Guards name) (assignment : Assignment) :
    (object.attempt assignment).assigned.lookup name = (object.assigned.lookup name).or
      (if assignment.name = name then some assignment.value else none) := by
  rcases object.attempt_spec assignment with ⟨hpresent, hrefuses⟩ | ⟨-, -, hattempt⟩
  · rw [hrefuses.unchanged]
    by_cases hname : assignment.name = name
    · -- nothing guards the attribute, so that it was refused as one that is assigned
      subst hname
      obtain ⟨value, hvalue⟩ := Option.isSome_iff_exists.mp (hpresent.resolve_left h)
      rw [hvalue, Option.some_or]
    · rw [if_neg hname, Option.or_none]
  · rw [hattempt]
    show (object.assigned ++ [(assignment.name, assignment.value)]).lookup name = _
    rw [List.lookup_append, List.lookup_cons]
    by_cases hname : assignment.name = name
    · rw [if_pos hname, beq_iff_eq.mpr hname.symm]
    · rw [if_neg hname, beq_false_of_ne (Ne.symm hname), List.lookup_nil]

/-- After a run of assignments a name has the first value it was given. -/
theorem lookup_assigned_after (h : ¬ object.subject.Guards name) (assignments : List Assignment) :
    (object.after assignments).assigned.lookup name =
      (object.assigned.lookup name).or (firstValue? assignments name) := by
  induction assignments generalizing object with
  | nil => exact Option.or_none.symm
  | cons assignment rest ih =>
    -- what nothing guards stays unguarded: only the subject guards, and it does not change
    have h' : ¬ (object.attempt assignment).subject.Guards name := by rwa [subject_attempt]
    rw [after_cons, ih h', lookup_assigned_attempt h, Option.or_assoc, ← firstValue?_cons]

/-- What is guarded reads as the subject says, whatever was assigned. -/
theorem read?_of_guards (h : object.subject.Guards name) :
    object.read? name = (object.subject.computedAttributes.lookup name).or
      (object.subject.ownAttributes.lookup name) := by
  unfold read? dictionary
  rw [List.lookup_append]
  cases hcomputed : object.subject.computedAttributes.lookup name with
  | some value => rfl
  | none =>
    have hown : (object.subject.ownAttributes.lookup name).isSome := by
      apply h.resolve_right
      rw [hcomputed]
      decide
    obtain ⟨value, hvalue⟩ := Option.isSome_iff_exists.mp hown
    rw [hvalue]
    rfl

theorem read?_of_not_guards (h : ¬ object.subject.Guards name) :
    object.read? name =
      (object.assigned.lookup name).or (object.subject.classAttributes.lookup name) := by
  obtain ⟨hown, hcomputed⟩ := Subject.not_guards_iff.mp h
  unfold read? dictionary
  rw [List.lookup_append, hown, hcomputed, Option.none_or, Option.none_or]

/-- Right after construction, what can be read is guarded or comes from the class alone. -/
theorem isSome_read?_of_iff {subject : Subject} : ((of subject).read? name).isSome ↔
    subject.Guards name ∨ name ∈ subject.inheritedNames := by
  by_cases h : subject.Guards name
  · have hread : (of subject).read? name = (subject.computedAttributes.lookup name).or
        (subject.ownAttributes.lookup name) := read?_of_guards h
    rw [hread, Option.isSome_or, Bool.or_eq_true]
    exact iff_of_true h.symm (Or.inl h)
  · have hread : (of subject).read? name = subject.classAttributes.lookup name :=
      read?_of_not_guards h
    rw [hread, Subject.mem_inheritedNames_iff]
    exact ⟨fun hclass => Or.inr ⟨h, hclass⟩, fun hor => (hor.resolve_left h).2⟩

/-- The first value assigned to an attribute that nothing guards is read ever after. -/
theorem read?_after (h : ¬ object.subject.Guards name) (hfresh : object.assigned.lookup name = none)
    (assignments : List Assignment) :
    (object.after assignments).read? name =
      (firstValue? assignments name).or (object.read? name) := by
  have h' : ¬ (object.after assignments).subject.Guards name := by rwa [subject_after]
  rw [read?_of_not_guards h', lookup_assigned_after h, read?_of_not_guards h, hfresh,
    subject_after, Option.none_or, Option.none_or]

/-! ### What is kept -/

/-- An attribute that assignments leave as it is: it reads the same afterwards, and each assignment
to it is refused. -/
structure Keeps (object : Sealed) (assignments : List Assignment) (name : String) : Prop where
  reads : (object.after assignments).read? name = object.read? name
  refuses : ∀ before assignment later, assignments = before ++ assignment :: later →
    assignment.name = name → (object.after before).Refuses assignment

/-- An attribute that can be assigned once: the first value that is assigned to it takes effect, and
each assignment after that is refused. -/
structure TakesOnce (object : Sealed) (assignments : List Assignment) (name : String) : Prop where
  reads : (object.after assignments).read? name =
    (firstValue? assignments name).or (object.read? name)
  accepts : ∀ before assignment later, assignments = before ++ assignment :: later →
    assignment.name = name → (∀ earlier ∈ before, earlier.name ≠ name) →
    (object.after before).assign name assignment.value = .ok (object.after (before ++ [assignment]))
  refuses : ∀ before assignment later, assignments = before ++ assignment :: later →
    assignment.name = name → (∃ earlier ∈ before, earlier.name = name) →
    (object.after before).Refuses assignment

/-- A guarded attribute outlives every run of assignments. -/
theorem keeps_of_guards (h : object.subject.Guards name) (assignments : List Assignment) :
    object.Keeps assignments name where
  reads := by
    have h' : (object.after assignments).subject.Guards name := by rwa [subject_after]
    rw [read?_of_guards h', read?_of_guards h, subject_after]
  refuses := by
    rintro before assignment later - rfl
    rw [refuses_iff, subject_after]
    exact Or.inl h

/-- An attribute that nothing guards takes one value in a run of assignments. -/
theorem takesOnce_of_not_guards (h : ¬ object.subject.Guards name)
    (hfresh : object.assigned.lookup name = none) (assignments : List Assignment) :
    object.TakesOnce assignments name where
  reads := read?_after h hfresh assignments
  accepts := by
    rintro before assignment later - rfl hearlier
    have h' : ¬ (object.after before).subject.Guards assignment.name := by rwa [subject_after]
    have hfresh' : (object.after before).assigned.lookup assignment.name = none := by
      rw [lookup_assigned_after h, hfresh, firstValue?_eq_none hearlier, Option.none_or]
    rw [after_concat]
    rcases (object.after before).attempt_spec assignment with ⟨hpresent, -⟩ | ⟨-, hassign, -⟩
    · rw [hfresh'] at hpresent
      exact absurd (hpresent.resolve_right (by decide)) h'
    · exact hassign
  refuses := by
    rintro before assignment later - rfl hearlier
    rw [refuses_iff, lookup_assigned_after h, hfresh, Option.none_or]
    exact Or.inr (isSome_firstValue?_iff.mpr hearlier)

/-- An attribute that can be assigned once is kept just by assignments to others. -/
theorem TakesOnce.keeps_iff (h : object.TakesOnce assignments name) :
    object.Keeps assignments name ↔ ∀ assignment ∈ assignments, assignment.name ≠ name := by
  constructor
  · -- of the assignments to the attribute the first is accepted, which no kept attribute allows
    intro hkeeps assignment hmem hname
    obtain ⟨before, first, later, hsplit, hfirst, hearlier⟩ :=
      exists_first ⟨assignment, hmem, hname⟩
    obtain ⟨fault, herror, -⟩ := (hkeeps.refuses before first later hsplit hfirst).error
    rw [hfirst, h.accepts before first later hsplit hfirst hearlier] at herror
    cases herror
  · intro hothers
    refine ⟨?_, ?_⟩
    · rw [h.reads, firstValue?_eq_none hothers, Option.none_or]
    · rintro before assignment later rfl hname
      exact absurd hname (hothers assignment (by simp))

/-! ### What is shown -/

/-- Right after construction an object has the text of what it is made of. -/
theorem pretty_of (subject : Subject) : (of subject).pretty =
    match subject with
    | .element element => element.pretty
    | .entry entry => entry.pretty
    | .grammar grammar => grammar.pretty := by
  match subject with
  | .element _ => rfl
  | .entry ⟨.rule, _, _, _⟩ => rfl
  | .entry ⟨.terminal _, _, _, _⟩ => rfl
  | .grammar _ => rfl

/-- Assignments show in the text of an object just by what they make of being a fragment. -/
theorem pretty_after (h : object.Keeps assignments "isFragment") :
    (object.after assignments).pretty = object.pretty := by
  unfold pretty
  rw [subject_after, h.reads]

/-! ### The life of an object -/

/-- Whatever is assigned to a built object, in any order and number, every attribute that it has
itself and every computed one reads as right after construction, and each assignment to it ends in
an attribute error and changes nothing.  An attribute that it has from its class alone takes one
assignment: the first value is read ever after, and the assignments after that are refused.  So all
attributes of the model are kept if and only if none is assigned of those that the object has from
its class alone.  This is about assignments to attributes; those to `__class__`, `__dict__` and
`__weakref__`, which are not refused either, are no assignments in this sense. -/
theorem assignments_settle (subject : Subject) (assignments : List Assignment) :
    ((∀ name ∈ modelNames, ((of subject).read? name).isSome →
        (of subject).Keeps assignments name) ↔
      ∀ assignment ∈ assignments, assignment.name ∉ subject.inheritedNames) ∧
    ∀ name, ((of subject).read? name).isSome →
      (name ∉ subject.inheritedNames → (of subject).Keeps assignments name) ∧
      (name ∈ subject.inheritedNames → (of subject).TakesOnce assignments name ∧
        ((of subject).Keeps assignments name ↔
          ∀ assignment ∈ assignments, assignment.name ≠ name)) := by
  have hkeeps : ∀ name, ((of subject).read? name).isSome → name ∉ subject.inheritedNames →
      (of subject).Keeps assignments name := by
    intro name hsome hname
    exact keeps_of_guards ((isSome_read?_of_iff.mp hsome).resolve_right hname) assignments
  have htakes : ∀ name ∈ subject.inheritedNames, (of subject).TakesOnce assignments name := by
    intro name hname
    exact takesOnce_of_not_guards (Subject.mem_inheritedNames_iff.mp hname).1 rfl assignments
  refine ⟨⟨?_, ?_⟩, ?_⟩
  · -- an attribute that is inherited is kept only if nothing is assigned to it
    intro hall assignment hmem hname
    have hsome : ((of subject).read? assignment.name).isSome :=
      isSome_read?_of_iff.mpr (Or.inr hname)
    have hkept := hall assignment.name (Subject.inheritedNames_subset subject hname) hsome
    exact (htakes _ hname).keeps_iff.mp hkept assignment hmem rfl
  · -- the other ones are guarded
    intro hothers name _ hsome
    by_cases hname : name ∈ subject.inheritedNames
    · apply (htakes name hname).keeps_iff.mpr
      rintro assignment hmem rfl
      exact hothers assignment hmem hname
    · exact hkeeps name hsome hname
  · intro name hsome
    exact ⟨hkeeps name hsome, fun hname => ⟨htakes name hname, (htakes name hname).keeps_iff⟩⟩

/-- A rule of one literal. -/
def letter : Entry :=
  ⟨.rule, "letter", "", [[.literal "a"]]⟩

/-- The rule is to get another identifier, to be a fragment and not to be one. -/
def relabelling : List Assignment :=
  [⟨"identifier", .datum (.text "b"), by decide⟩, ⟨"isFragment", .datum (.bool true), by decide⟩,
    ⟨"isFragment", .datum (.bool false), by decide⟩]

/-- The identifier is kept, and being a fragment takes the first of two values. -/
theorem assignments_settle_letter :
    ((of (.entry letter)).read? "identifier").isSome ∧
      (of (.entry letter)).Keeps relabelling "identifier" ∧
      ((of (.entry letter)).read? "isFragment").isSome ∧
      ¬ (of (.entry letter)).Keeps relabelling "isFragment" ∧
      ((of (.entry letter)).after relabelling).read? "isFragment" = some (.datum (.bool true)) ∧
      ((of (.entry letter)).after relabelling).pretty = "letter (fragment) -> 'a'" := by
  obtain ⟨-, hnames⟩ := assignments_settle (.entry letter) relabelling
  obtain ⟨htakes, hkeeps_iff⟩ := (hnames "isFragment" rfl).2 (by decide)
  refine ⟨rfl, (hnames "identifier" rfl).1 (by decide), rfl, ?_, htakes.reads, by decide +kernel⟩
  intro hkeeps
  exact hkeeps_iff.mp hkeeps ⟨"isFragment", .datum (.bool true), by decide⟩
    (List.mem_cons_of_mem _ List.mem_cons_self) rfl

/-- A rule that was built is no fragment, and can be made one afterwards. -/
theorem not_keeps_isFragment :
    Entry.build .rule "letter" "" [[.datum (.text "a")]] = .ok letter ∧
      "isFragment" ∈ modelNames ∧
      (of (.entry letter)).read? "isFragment" = some (.datum (.bool false)) ∧
      ¬ (of (.entry letter)).Keeps [⟨"isFragment", .datum (.bool true), by decide⟩]
        "isFragment" := by
  refine ⟨rfl, by decide, rfl, ?_⟩
  intro hkeeps
  obtain ⟨fault, herror, -⟩ := (hkeeps.refuses [] _ [] rfl rfl).error
  cases herror

end Sealed

end SyntaxDiagram
