import Mathlib.Data.List.Forall2

/-!
# Computations that succeed or fail

Inversion of successful `Except` computations: a bind, a map or a `mapM` has a result iff its parts
have (`bind_eq_ok_iff`, `mapM_eq_ok_iff`).  Of one that fails, `error?` is the error, and that of a
`mapM` is the first error among its elements (`error?_mapM`).  Layout and resolution are taken apart
with these.
-/

namespace SyntaxDiagram

variable {ε ε' α β : Type}

/-- Two steps in a row succeed iff the first does and the second does on its result. -/
theorem bind_eq_ok_iff {x : Except ε α} {f : α → Except ε β} {b : β} :
    x >>= f = .ok b ↔ ∃ a, x = .ok a ∧ f a = .ok b := by
  cases x <;> simp [bind, Except.bind]

/-- Two steps in a row that are known to succeed have a result each. -/
theorem exists_of_isSome_bind {x : Except ε α} {f : α → Except ε β}
    (h : (x >>= f).toOption.isSome = true) : ∃ a b, x = .ok a ∧ f a = .ok b := by
  cases hx : x >>= f with
  | error fault =>
    rw [hx] at h
    exact absurd h Bool.false_ne_true
  | ok b =>
    obtain ⟨a, ha, hb⟩ := bind_eq_ok_iff.mp hx
    exact ⟨a, b, ha, hb⟩

theorem pure_eq_ok_iff {a b : α} : (pure a : Except ε α) = .ok b ↔ a = b := by
  simp [pure, Except.pure]

theorem throw_ne_ok {e : ε} {a : α} : (throw e : Except ε α) ≠ .ok a := by
  simp [throw, throwThe, MonadExceptOf.throw]

theorem map_eq_ok_iff {x : Except ε α} {f : α → β} {b : β} :
    x.map f = .ok b ↔ ∃ a, x = .ok a ∧ f a = b := by
  cases x <;> simp [Except.map]

/-- Renaming errors changes no result. -/
theorem mapError_eq_ok_iff {x : Except ε α} {f : ε → ε'} {a : α} :
    x.mapError f = .ok a ↔ x = .ok a := by
  cases x <;> simp [Except.mapError]

/-- A step succeeds on a whole list iff it does on each member, and the results are in order. -/
theorem mapM_eq_ok_iff {f : α → Except ε β} {xs : List α} {ys : List β} :
    xs.mapM f = .ok ys ↔ List.Forall₂ (fun x y => f x = .ok y) xs ys := by
  induction xs generalizing ys with
  | nil =>
    rw [List.mapM_nil, pure_eq_ok_iff, List.forall₂_nil_left_iff, eq_comm]
  | cons x xs ih =>
    rw [List.mapM_cons, bind_eq_ok_iff, List.forall₂_cons_left_iff]
    simp only [bind_eq_ok_iff, pure_eq_ok_iff, ih]
    -- both sides say the same, in another order
    constructor
    · rintro ⟨y, hy, ys', hys, rfl⟩
      exact ⟨y, ys', hy, hys, rfl⟩
    · rintro ⟨y, ys', hy, hys, rfl⟩
      exact ⟨y, hy, ys', hys, rfl⟩

/-- Each result comes from some member of the list. -/
theorem exists_of_mem_of_mapM_eq_ok {f : α → Except ε β} {xs : List α} {ys : List β}
    (h : xs.mapM f = .ok ys) {y : β} (hy : y ∈ ys) : ∃ x ∈ xs, f x = .ok y := by
  rw [mapM_eq_ok_iff] at h
  induction h with
  | nil => exact absurd hy List.not_mem_nil
  | @cons x y' xs ys hxy _ ih =>
    rcases List.mem_cons.mp hy with rfl | hy
    · exact ⟨x, List.mem_cons_self .., hxy⟩
    · obtain ⟨x', hx', h⟩ := ih hy
      exact ⟨x', List.mem_cons_of_mem _ hx', h⟩

/-- What holds of the result for every element holds of all results. -/
theorem forall_mem_of_mapM_eq_ok {f : α → Except ε β} {P : β → Prop} {xs : List α} {ys : List β}
    (h : xs.mapM f = .ok ys) (hP : ∀ x ∈ xs, ∀ y, f x = .ok y → P y) : ∀ y ∈ ys, P y := by
  intro y hy
  obtain ⟨x, hx, hxy⟩ := exists_of_mem_of_mapM_eq_ok h hy
  exact hP x hx y hxy

theorem ne_nil_of_mapM_eq_ok {f : α → Except ε β} {xs : List α} {ys : List β}
    (h : xs.mapM f = .ok ys) (hxs : xs ≠ []) : ys ≠ [] := by
  rintro rfl
  rw [mapM_eq_ok_iff, List.forall₂_nil_right_iff] at h
  exact hxs h

/-- What holds of every element and its result holds of the lists of them. -/
theorem map_eq_map_of_mapM_eq_ok {γ : Type*} {f : α → Except ε β} {g : β → γ} {g' : α → γ}
    {xs : List α} {ys : List β} (h : xs.mapM f = .ok ys)
    (hg : ∀ x ∈ xs, ∀ y, f x = .ok y → g y = g' x) : ys.map g = xs.map g' := by
  rw [mapM_eq_ok_iff] at h
  induction h with
  | nil => rfl
  | cons hxy _ ih =>
    rw [List.map_cons, List.map_cons, hg _ (List.mem_cons_self ..) _ hxy,
      ih fun x hx => hg x (List.mem_cons_of_mem _ hx)]

/-- The elements of a list with their results. -/
theorem exists_pairs_of_mapM_eq_ok {f : α → Except ε β} {xs : List α} {ys : List β}
    (h : xs.mapM f = .ok ys) : ∃ pairs : List (α × β), pairs.map Prod.fst = xs ∧
      pairs.map Prod.snd = ys ∧ ∀ pair ∈ pairs, f pair.1 = .ok pair.2 := by
  rw [mapM_eq_ok_iff] at h
  induction h with
  | nil => exact ⟨[], rfl, rfl, by simp⟩
  | @cons x y _ _ hxy _ ih =>
    obtain ⟨pairs, rfl, rfl, hpairs⟩ := ih
    exact ⟨(x, y) :: pairs, rfl, rfl, List.forall_mem_cons.mpr ⟨hxy, hpairs⟩⟩

/-- When every result is in a relation with what its element is mapped to, so are the lists. -/
theorem forall₂_of_mapM_eq_ok {γ : Type*} {f : α → Except ε β} {R : β → γ → Prop} {g : α → γ}
    {xs : List α} {ys : List β} (h : xs.mapM f = .ok ys)
    (hR : ∀ x ∈ xs, ∀ y, f x = .ok y → R y (g x)) : List.Forall₂ R ys (xs.map g) := by
  rw [mapM_eq_ok_iff] at h
  induction h with
  | nil => exact .nil
  | cons hxy _ ih =>
    rw [List.forall_mem_cons] at hR
    exact .cons (hR.1 _ hxy) (ih hR.2)

/-- When the results of two computations for every element are in a relation, so are the lists. -/
theorem forall₂_of_mapM_of_mapM {γ : Type} {f : α → Except ε β} {g : α → Except ε γ}
    {R : β → γ → Prop} {xs : List α} {ys : List β} {zs : List γ} (hys : xs.mapM f = .ok ys)
    (hzs : xs.mapM g = .ok zs) (hR : ∀ x ∈ xs, ∀ y z, f x = .ok y → g x = .ok z → R y z) :
    List.Forall₂ R ys zs := by
  rw [mapM_eq_ok_iff] at hys hzs
  induction hys generalizing zs with
  | nil =>
    cases hzs
    exact .nil
  | cons hxy _ ih =>
    rw [List.forall_mem_cons] at hR
    cases hzs with
    | cons hxz hzs => exact .cons (hR.1 _ _ hxy hxz) (ih hzs hR.2)

/-- What holds of every result iff it holds of its element holds of all results iff it holds of all
elements. -/
theorem forall_mem_iff_of_mapM_eq_ok {f : α → Except ε β} {P : α → Prop} {Q : β → Prop}
    {xs : List α} {ys : List β} (h : xs.mapM f = .ok ys)
    (hiff : ∀ x ∈ xs, ∀ y, f x = .ok y → (Q y ↔ P x)) : (∀ y ∈ ys, Q y) ↔ ∀ x ∈ xs, P x := by
  have hmap : ys.map Q = xs.map P :=
    map_eq_map_of_mapM_eq_ok h fun x hx y hxy => propext (hiff x hx y hxy)
  have hall : (∀ p ∈ ys.map Q, p) ↔ ∀ p ∈ xs.map P, p := by rw [hmap]
  rwa [List.forall_mem_map, List.forall_mem_map] at hall

/-- When it is known of every element whether it succeeds and with which result, it is known of the
whole list. -/
theorem mapM_eq_ok_iff_of_forall {f : α → Except ε β} {P : α → Prop} {g : α → β} {xs : List α}
    (h : ∀ x ∈ xs, ∀ y, f x = .ok y ↔ P x ∧ y = g x) (ys : List β) :
    xs.mapM f = .ok ys ↔ (∀ x ∈ xs, P x) ∧ ys = xs.map g := by
  induction xs generalizing ys with
  | nil =>
    rw [List.mapM_nil, pure_eq_ok_iff]
    simp [eq_comm]
  | cons x xs ih =>
    have hx := h x (List.mem_cons_self ..)
    have hxs := ih fun x' hx' => h x' (List.mem_cons_of_mem _ hx')
    rw [List.mapM_cons, bind_eq_ok_iff, List.forall_mem_cons, List.map_cons]
    simp only [bind_eq_ok_iff, pure_eq_ok_iff, hx, hxs]
    constructor
    · rintro ⟨_, ⟨hP, rfl⟩, _, ⟨hPs, rfl⟩, rfl⟩
      exact ⟨⟨hP, hPs⟩, rfl⟩
    · rintro ⟨⟨hP, hPs⟩, rfl⟩
      exact ⟨g x, ⟨hP, rfl⟩, xs.map g, ⟨hPs, rfl⟩, rfl⟩

/-- When it is known whether the first step succeeds and with which result, and the second step
succeeds on that, it is known of both together. -/
theorem bind_eq_ok_iff_of_forall {x : Except ε α} {P : Prop} {a : α} {f : α → Except ε β} {b : β}
    (hx : ∀ y, x = .ok y ↔ P ∧ y = a) (hf : f a = .ok b) {z : β} :
    x >>= f = .ok z ↔ P ∧ z = b := by
  rw [bind_eq_ok_iff]
  constructor
  · rintro ⟨y, hy, hz⟩
    obtain ⟨hP, rfl⟩ := (hx y).mp hy
    rw [hf] at hz
    exact ⟨hP, (Except.ok.inj hz).symm⟩
  · rintro ⟨hP, rfl⟩
    exact ⟨a, (hx a).mpr ⟨hP, rfl⟩, hf⟩

/-- When every element succeeds with a known result, so does the whole list. -/
theorem mapM_eq_ok_map {f : α → Except ε β} {g : α → β} {xs : List α}
    (h : ∀ x ∈ xs, f x = .ok (g x)) : xs.mapM f = .ok (xs.map g) := by
  rw [mapM_eq_ok_iff, List.forall₂_map_right_iff, List.forall₂_same]
  exact h

/-- When every element is its own result, so is the whole list. -/
theorem mapM_eq_ok_self {f : α → Except ε α} {xs : List α} (h : ∀ x ∈ xs, f x = .ok x) :
    xs.mapM f = .ok xs := by
  rw [mapM_eq_ok_iff, List.forall₂_same]
  exact h

/-- When every computation is another one with its result mapped, so is a list of them. -/
theorem mapM_map_of_forall {α' β' : Type} {f : α → Except ε β} {f' : α' → Except ε β'} {g : α → α'}
    {k : β → β'} {xs : List α} (h : ∀ x ∈ xs, f' (g x) = (f x).map k) :
    (xs.map g).mapM f' = (xs.mapM f).map (List.map k) := by
  induction xs with
  | nil => rfl
  | cons x xs ih =>
    rw [List.forall_mem_cons] at h
    rw [List.map_cons, List.mapM_cons, List.mapM_cons, h.1, ih h.2]
    cases f x with
    | error e => rfl
    | ok y => cases xs.mapM f <;> rfl

/-- When each step is another one with its result mapped, so are both together. -/
theorem bind_map_of_forall {α' β' : Type} {x : Except ε α} {f : α → Except ε β}
    {f' : α' → Except ε β'} {g : α → α'} {k : β → β'} (h : ∀ a, f' (g a) = (f a).map k) :
    x.map g >>= f' = (x >>= f).map k := by
  cases x with
  | error e => rfl
  | ok a => exact h a

/-- A step succeeds on two lists in a row iff it does on each of them. -/
theorem mapM_append_eq_ok_iff {f : α → Except ε β} {xs ys : List α} {zs : List β} :
    (xs ++ ys).mapM f = .ok zs ↔
      ∃ bs cs, xs.mapM f = .ok bs ∧ ys.mapM f = .ok cs ∧ zs = bs ++ cs := by
  simp only [List.mapM_append, bind_eq_ok_iff, pure_eq_ok_iff]
  constructor
  · rintro ⟨bs, hbs, cs, hcs, rfl⟩
    exact ⟨bs, cs, hbs, hcs, rfl⟩
  · rintro ⟨bs, cs, hbs, hcs, rfl⟩
    exact ⟨bs, hbs, cs, hcs, rfl⟩

theorem mapM_cons_eq_ok_iff {f : α → Except ε β} {x : α} {xs : List α} {zs : List β} :
    (x :: xs).mapM f = .ok zs ↔
      ∃ b bs, f x = .ok b ∧ xs.mapM f = .ok bs ∧ zs = b :: bs := by
  simp only [List.mapM_cons, bind_eq_ok_iff, pure_eq_ok_iff]
  constructor
  · rintro ⟨b, hb, bs, hbs, rfl⟩
    exact ⟨b, bs, hb, hbs, rfl⟩
  · rintro ⟨b, bs, hb, hbs, rfl⟩
    exact ⟨b, hb, bs, hbs, rfl⟩

/-- When one element is replaced by one with a related result, all results are related. -/
theorem exists_mapM_replace {f : α → Except ε β} {R : β → β → Prop} (hR : ∀ b, R b b)
    {before after : List α} {x x' : α}
    (hx : ∀ b, f x = .ok b → ∃ b', f x' = .ok b' ∧ R b b') {zs : List β}
    (h : (before ++ x :: after).mapM f = .ok zs) :
    ∃ zs', (before ++ x' :: after).mapM f = .ok zs' ∧ List.Forall₂ R zs zs' := by
  obtain ⟨bs, _, hbs, hrest, rfl⟩ := mapM_append_eq_ok_iff.mp h
  obtain ⟨b, cs, hb, hcs, rfl⟩ := mapM_cons_eq_ok_iff.mp hrest
  obtain ⟨b', hb', hbb'⟩ := hx b hb
  have hsame (l : List β) : List.Forall₂ R l l := List.forall₂_same.mpr fun b _ => hR b
  exact ⟨bs ++ b' :: cs,
    mapM_append_eq_ok_iff.mpr
      ⟨bs, b' :: cs, hbs, mapM_cons_eq_ok_iff.mpr ⟨b', cs, hb', hcs, rfl⟩, rfl⟩,
    List.rel_append (hsame bs) (.cons hbb' (hsame cs))⟩

/-! ### Errors -/

/-- The error that a computation ends in, unless it succeeds. -/
def error? : Except ε α → Option ε
  | .ok _ => none
  | .error e => some e

@[simp]
theorem error?_ok (a : α) : error? (.ok a : Except ε α) = none := rfl

@[simp]
theorem error?_error (e : ε) : error? (.error e : Except ε α) = some e := rfl

@[simp]
theorem error?_pure (a : α) : error? (pure a : Except ε α) = none := rfl

/-- The error of a step that fails. -/
theorem error?_eq_some_iff {x : Except ε α} {e : ε} : error? x = some e ↔ x = .error e := by
  cases x <;> simp

/-- A step without an error succeeds. -/
theorem error?_eq_none_iff {x : Except ε α} : error? x = none ↔ ∃ a, x = .ok a := by
  cases x <;> simp

/-- Two steps in a row fail because the first does, or the second does on its result. -/
theorem bind_eq_error_iff {x : Except ε α} {f : α → Except ε β} {e : ε} :
    x >>= f = .error e ↔ x = .error e ∨ ∃ a, x = .ok a ∧ f a = .error e := by
  cases x <;> simp [bind, Except.bind]

/-- When it is known whether the first step succeeds and with which result, both together fail where
the first step does, or where the second one does on that result. -/
theorem bind_eq_error_iff_of_forall {x : Except ε α} {P : Prop} {a : α} {f : α → Except ε β} {e : ε}
    (hx : ∀ y, x = .ok y ↔ P ∧ y = a) : x >>= f = .error e ↔ x = .error e ∨ P ∧ f a = .error e := by
  rw [bind_eq_error_iff]
  simp only [hx]
  refine or_congr_right ⟨?_, fun h => ⟨a, ⟨h.1, rfl⟩, h.2⟩⟩
  rintro ⟨_, ⟨hP, rfl⟩, he⟩
  exact ⟨hP, he⟩

/-- A fold fails at the first element that its function fails on, with all before it folded. -/
theorem foldlM_eq_error_iff {f : β → α → Except ε β} {xs : List α} {b : β} {e : ε} :
    xs.foldlM f b = .error e ↔
      ∃ before x after c, xs = before ++ x :: after ∧ before.foldlM f b = .ok c ∧
        f c x = .error e := by
  induction xs generalizing b with
  | nil =>
    rw [List.foldlM_nil]
    simp [pure, Except.pure]
  | cons y ys ih =>
    rw [List.foldlM_cons, bind_eq_error_iff]
    constructor
    · rintro (hy | ⟨b', hb', hys⟩)
      · exact ⟨[], y, ys, b, rfl, rfl, hy⟩
      · obtain ⟨before, x, after, c, rfl, hbefore, hx⟩ := ih.mp hys
        refine ⟨y :: before, x, after, c, rfl, ?_, hx⟩
        rw [List.foldlM_cons, hb']
        exact hbefore
    · rintro ⟨before, x, after, c, hsplit, hbefore, hx⟩
      -- the first element is the one at fault, or it is folded
      rcases List.cons_eq_append_iff.mp hsplit with ⟨rfl, hcons⟩ | ⟨before', rfl, rfl⟩
      · obtain ⟨rfl, rfl⟩ := List.cons.inj hcons
        obtain rfl := pure_eq_ok_iff.mp hbefore
        exact Or.inl hx
      · rw [List.foldlM_cons, bind_eq_ok_iff] at hbefore
        obtain ⟨b', hb', hbefore⟩ := hbefore
        exact Or.inr ⟨b', hb', ih.mpr ⟨before', x, after, c, rfl, hbefore, hx⟩⟩

theorem map_eq_error_iff {x : Except ε α} {f : α → β} {e : ε} :
    x.map f = .error e ↔ x = .error e := by
  cases x <;> simp [Except.map]

/-- An error that was renamed comes from one that was not. -/
theorem mapError_eq_error_iff {x : Except ε α} {f : ε → ε'} {e : ε'} :
    x.mapError f = .error e ↔ ∃ e', x = .error e' ∧ f e' = e := by
  cases x <;> simp [Except.mapError]

theorem error?_mapError (x : Except ε α) (f : ε → ε') :
    error? (x.mapError f) = (error? x).map f := by
  cases x <;> rfl

/-- When it is known which error the second step ends in, whatever the first one gives to it, it is
known of both together. -/
theorem error?_bind_of_forall {x : Except ε α} {f : α → Except ε β} {e : Option ε}
    (h : ∀ a, x = .ok a → error? (f a) = e) : error? (x >>= f) = (error? x).or e := by
  cases x with
  | ok a => exact h a rfl
  | error e' => rfl

/-- The error of a list of computations is the first one in it. -/
theorem error?_mapM (f : α → Except ε β) (xs : List α) :
    error? (xs.mapM f) = xs.findSome? fun x => error? (f x) := by
  induction xs with
  | nil => rfl
  | cons x xs ih =>
    have hrest (y : β) : error? (xs.mapM f >>= fun ys => pure (y :: ys)) = error? (xs.mapM f) := by
      rw [error?_bind_of_forall fun _ _ => error?_pure _, Option.or_none]
    rw [List.mapM_cons, error?_bind_of_forall fun y _ => hrest y, ih, List.findSome?_cons]
    cases f x <;> rfl

/-- A list of computations succeeds iff all of them do. -/
theorem exists_mapM_eq_ok_iff {f : α → Except ε β} {xs : List α} :
    (∃ ys, xs.mapM f = .ok ys) ↔ ∀ x ∈ xs, ∃ y, f x = .ok y := by
  simp only [← error?_eq_none_iff, error?_mapM, List.findSome?_eq_none_iff]

/-- Each member of a list on which a step succeeds has a result. -/
theorem exists_ok_of_mapM_eq_ok {f : α → Except ε β} {xs : List α} {ys : List β}
    (h : xs.mapM f = .ok ys) {x : α} (hx : x ∈ xs) : ∃ y, f x = .ok y :=
  exists_mapM_eq_ok_iff.mp ⟨ys, h⟩ x hx

/-- A list of computations fails at the first one that does, with all before it done. -/
theorem mapM_eq_error_iff {f : α → Except ε β} {xs : List α} {e : ε} :
    xs.mapM f = .error e ↔
      ∃ before x after ys, xs = before ++ x :: after ∧ before.mapM f = .ok ys ∧
        f x = .error e := by
  rw [← error?_eq_some_iff, error?_mapM, List.findSome?_eq_some_iff]
  simp only [error?_eq_none_iff, ← exists_mapM_eq_ok_iff, error?_eq_some_iff]
  constructor
  · rintro ⟨before, x, after, hsplit, hx, ys, hbefore⟩
    exact ⟨before, x, after, ys, hsplit, hbefore, hx⟩
  · rintro ⟨before, x, after, ys, hsplit, hbefore, hx⟩
    exact ⟨before, x, after, hsplit, hx, ys, hbefore⟩

/-- When each computation ends in the first fault of some parts, so does a list of them, with all
parts in order. -/
theorem error?_mapM_of_forall {γ : Type} {f : α → Except ε β} {parts : α → List γ}
    {fault? : γ → Option ε} {xs : List α}
    (h : ∀ x ∈ xs, error? (f x) = (parts x).findSome? fault?) :
    error? (xs.mapM f) = (xs.flatMap parts).findSome? fault? := by
  rw [error?_mapM]
  induction xs with
  | nil => rfl
  | cons x xs ih =>
    rw [List.forall_mem_cons] at h
    rw [List.flatMap_cons, List.findSome?_append, ← ih h.2, List.findSome?_cons, h.1]
    cases (parts x).findSome? fault? <;> rfl

/-- Steps that agree on the members of a list agree on the list. -/
theorem mapM_congr {f g : α → Except ε β} {xs : List α} (h : ∀ x ∈ xs, f x = g x) :
    xs.mapM f = xs.mapM g := by
  induction xs with
  | nil => rfl
  | cons x xs ih =>
    rw [List.forall_mem_cons] at h
    rw [List.mapM_cons, List.mapM_cons, h.1, ih h.2]

end SyntaxDiagram
