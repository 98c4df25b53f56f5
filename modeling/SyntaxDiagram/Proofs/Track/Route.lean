import SyntaxDiagram.Proofs.Element.Language
import SyntaxDiagram.Proofs.Geometry.Rect

/-!
# Routes

A track is a set of edges between points of a drawing, some with a token on them, and a route is a
way along them in their directions.  A `Fragment` is a track between two points that lies in the
columns from the one to the other: nothing leads back to where it starts, or on from where it ends.
So fragments put one after the other (`Fragment.series`), one beside the other (`Fragment.sum`) or
in a loop (`Fragment.loop`) have no other routes than those made of routes of the parts.
-/

namespace SyntaxDiagram

/-- A way from a point straight to another one, with the token read along it. -/
structure Edge where
  source : Point
  target : Point
  token : Option Token
  deriving DecidableEq, Repr

/-- A route along some edges, with the tokens read along it. -/
inductive Route (E : Set Edge) : Point → List Token → Point → Prop
  | nil (p : Point) : Route E p [] p
  | cons {e : Edge} {word : List Token} {q : Point} (mem : e ∈ E) (rest : Route E e.target word q) :
    Route E e.source (e.token.toList ++ word) q

namespace Route

variable {E F : Set Edge} {p q r : Point} {v w : List Token}

/-- More edges leave every route. -/
theorem mono (h : E ⊆ F) (hw : Route E p w q) : Route F p w q := by
  induction hw with
  | nil p => exact .nil p
  | cons mem _ ih => exact .cons (h mem) ih

/-- Routes may be followed one after the other. -/
theorem append (hv : Route E p v q) (hw : Route E q w r) : Route E p (v ++ w) r := by
  induction hv with
  | nil p => exact hw
  | cons mem _ ih =>
    rw [List.append_assoc]
    exact .cons mem (ih hw)

theorem single {e : Edge} (h : e ∈ E) : Route E e.source e.token.toList e.target := by
  simpa using Route.cons h (.nil e.target)

/-- A route stays where it is, or takes a first edge. -/
theorem inv (hw : Route E p w q) :
    (p = q ∧ w = []) ∨
      ∃ e ∈ E, ∃ v, p = e.source ∧ w = e.token.toList ++ v ∧ Route E e.target v q := by
  cases hw with
  | nil => exact Or.inl ⟨rfl, rfl⟩
  | cons mem rest => exact Or.inr ⟨_, mem, _, rfl, rfl, rest⟩

/-- A route that never meets a source of `F` does without `F`. -/
theorem of_union (hw : Route (E ∪ F) p w q) (hp : ∀ f ∈ F, p ≠ f.source)
    (hE : ∀ e ∈ E, ∀ f ∈ F, e.target ≠ f.source) : Route E p w q := by
  induction hw with
  | nil p => exact .nil p
  | @cons e word q mem _ ih =>
    rcases mem with he | hf
    · exact .cons he (ih (hE e he))
    · exact absurd rfl (hp e hf)

/-- From a point at which no edge starts, no route leads anywhere. -/
theorem eq_of_forall_ne (hw : Route E p w q) (hp : ∀ e ∈ E, p ≠ e.source) : p = q ∧ w = [] := by
  rcases hw.inv with h | ⟨e, he, v, rfl, -, -⟩
  · exact h
  · exact absurd rfl (hp e he)

end Route

/-- The edges are a track from `s` to `t`, in the columns between them, with routes for the words of
a language. -/
structure Fragment (E : Set Edge) (s t : Point) (L : Language Token) : Prop where
  ends : s = t ∨ s.1 < t.1
  source_mem : ∀ e ∈ E, s.1 ≤ e.source.1 ∧ e.source.1 < t.1
  target_mem : ∀ e ∈ E, s.1 < e.target.1 ∧ (e.target = t ∨ e.target.1 < t.1)
  route_iff : ∀ w, Route E s w t ↔ w ∈ L

namespace Fragment

variable {E F : Set Edge} {s t u : Point} {L M : Language Token}

/-- A fragment does not lead backwards. -/
theorem le (h : Fragment E s t L) : s.1 ≤ t.1 := by
  rcases h.ends with rfl | h
  · exact le_rfl
  · exact h.le

theorem congr {E' : Set Edge} {L' : Language Token} (h : Fragment E s t L) (hE : E' = E)
    (hL : L' = L) : Fragment E' s t L' := by
  rwa [hE, hL]

/-! ### Basic fragments -/

/-- Without edges a point is a fragment on which nothing is read. -/
theorem empty (s : Point) : Fragment ∅ s s 1 where
  ends := Or.inl rfl
  source_mem := fun e he => absurd he (Set.notMem_empty e)
  target_mem := fun e he => absurd he (Set.notMem_empty e)
  route_iff := fun w => by
    rw [Language.mem_one]
    constructor
    · intro hw
      exact (hw.eq_of_forall_ne fun e he => absurd he (Set.notMem_empty e)).2
    · rintro rfl
      exact .nil s

/-- Without edges two points are a fragment with no word at all. -/
theorem none (h : s.1 < t.1) : Fragment ∅ s t 0 where
  ends := Or.inr h
  source_mem := fun e he => absurd he (Set.notMem_empty e)
  target_mem := fun e he => absurd he (Set.notMem_empty e)
  route_iff := fun w => by
    refine ⟨fun hw => ?_, fun hw => absurd hw (Language.notMem_zero w)⟩
    obtain ⟨rfl, -⟩ := hw.eq_of_forall_ne fun e he => absurd he (Set.notMem_empty e)
    exact absurd h (lt_irrefl _)

theorem single (e : Edge) (h : e.source.1 < e.target.1) :
    Fragment {e} e.source e.target {e.token.toList} where
  ends := Or.inr h
  source_mem := by
    rintro _ rfl
    exact ⟨le_rfl, h⟩
  target_mem := by
    rintro _ rfl
    exact ⟨h, Or.inl rfl⟩
  route_iff := fun w => by
    constructor
    · intro hw
      rcases hw.inv with ⟨hst, -⟩ | ⟨_, rfl, v, -, rfl, hv⟩
      · exact absurd h (by rw [hst]; exact lt_irrefl _)
      · have hstop := hv.eq_of_forall_ne fun f hf => by
          rw [Set.mem_singleton_iff.mp hf]
          rintro hst
          exact absurd h (by rw [hst]; exact lt_irrefl _)
        rw [hstop.2, List.append_nil]
        rfl
    · rintro rfl
      exact .single rfl

/-! ### One after the other -/

/-- Behind the seam, a route in two fragments one after the other is in the second one. -/
theorem route_right (hE : Fragment E s u L) (hF : Fragment F u t M) {p q : Point} {w : List Token}
    (hp : u.1 ≤ p.1) (hw : Route (E ∪ F) p w q) : Route F p w q := by
  induction hw with
  | nil p => exact .nil p
  | @cons e w q mem _ ih =>
    rcases mem with he | hf
    · -- an edge of the first one starts in front of the seam
      have := hE.source_mem e he
      omega
    · exact .cons hf (ih (hF.target_mem e hf).1.le)

/-- A route in two fragments one after the other passes the seam. -/
theorem route_split (hE : Fragment E s u L) (hF : Fragment F u t M) {p : Point} {w : List Token}
    (hp : p = u ∨ p.1 < u.1) (hw : Route (E ∪ F) p w t) :
    ∃ v v', Route E p v u ∧ Route F u v' t ∧ v ++ v' = w := by
  induction hw with
  | nil p =>
    have hut := hF.le
    rcases hp with rfl | hp
    · exact ⟨[], [], .nil p, .nil p, rfl⟩
    · omega
  | @cons e w q mem rest ih =>
    rcases mem with he | hf
    · obtain ⟨v, v', hv, hv', rfl⟩ := ih hF (hE.target_mem e he).2
      exact ⟨_, v', .cons he hv, hv', List.append_assoc ..⟩
    · rcases hp with hp | hp
      · -- the route is at the seam, where only the first one ends
        have hle : u.1 ≤ e.source.1 := by rw [hp]
        have hroute := route_right hE hF hle (.cons (Or.inr hf) rest)
        rw [hp] at hroute ⊢
        exact ⟨[], _, .nil u, hroute, rfl⟩
      · have := (hF.source_mem e hf).1
        omega

/-- Two fragments that meet at a seam are one on which the words of both are read in a row. -/
theorem series (hE : Fragment E s u L) (hF : Fragment F u t M) :
    Fragment (E ∪ F) s t (L * M) where
  ends := by
    rcases hE.ends with rfl | hsu
    · exact hF.ends
    · exact Or.inr (hsu.trans_le hF.le)
  source_mem := by
    have hsu := hE.le
    have hut := hF.le
    rintro e (he | hf)
    · have := hE.source_mem e he
      omega
    · have := hF.source_mem e hf
      omega
  target_mem := by
    have hsu := hE.le
    rintro e (he | hf)
    · obtain ⟨hse, heu⟩ := hE.target_mem e he
      refine ⟨hse, ?_⟩
      rcases heu with heu | heu
      · rw [heu]
        exact hF.ends
      · exact Or.inr (heu.trans_le hF.le)
    · obtain ⟨hue, het⟩ := hF.target_mem e hf
      exact ⟨hsu.trans_lt hue, het⟩
  route_iff := fun w => by
    rw [Language.mem_mul]
    constructor
    · -- a route through both passes the seam and is split there
      intro hw
      obtain ⟨v, v', hv, hv', rfl⟩ := route_split hE hF hE.ends hw
      exact ⟨v, (hE.route_iff v).mp hv, v', (hF.route_iff v').mp hv', rfl⟩
    · -- two routes that meet at the seam are one
      rintro ⟨v, hv, v', hv', rfl⟩
      exact (((hE.route_iff v).mpr hv).mono Set.subset_union_left).append
        (((hF.route_iff v').mpr hv').mono Set.subset_union_right)

/-! ### One beside the other -/

/-- Two fragments between the same points have no other point in common. -/
theorem add (hE : Fragment E s t L) (hF : Fragment F s t M)
    (hEF : ∀ e ∈ E, ∀ f ∈ F, e.target ≠ f.source ∧ f.target ≠ e.source) :
    Fragment (E ∪ F) s t (L + M) where
  ends := hE.ends
  source_mem := by
    rintro e (he | hf)
    · exact hE.source_mem e he
    · exact hF.source_mem e hf
  target_mem := by
    rintro e (he | hf)
    · exact hE.target_mem e he
    · exact hF.target_mem e hf
  route_iff := fun w => by
    rw [Language.mem_add, ← hE.route_iff, ← hF.route_iff]
    constructor
    · intro hw
      -- the first edge decides in which of the two the route is
      rcases hw.inv with ⟨rfl, rfl⟩ | ⟨e, he | hf, v, rfl, rfl, hv⟩
      · exact Or.inl (.nil s)
      · refine Or.inl (.cons he (hv.of_union ?_ ?_))
        · exact fun f hf => (hEF e he f hf).1
        · exact fun e' he' f hf => (hEF e' he' f hf).1
      · rw [Set.union_comm] at hv
        refine Or.inr (.cons hf (hv.of_union ?_ ?_))
        · exact fun e' he' => (hEF e' he' e hf).2
        · exact fun f hf e' he' => (hEF e' he' f hf).2
    · rintro (hw | hw)
      · exact hw.mono Set.subset_union_left
      · exact hw.mono Set.subset_union_right

/-- An edge of one of two fragments does not lead to the other one. -/
theorem target_ne_source {e f : Edge} {r r' : Rect} (he : s.1 < e.target.1)
    (hf : f.source.1 < t.1) (htarget : e.target = t ∨ e.target ∈ r)
    (hsource : f.source = s ∨ f.source ∈ r') (hr : r.Apart r') : e.target ≠ f.source := by
  rcases htarget with htarget | htarget
  · rintro heq
    rw [← heq, htarget] at hf
    exact lt_irrefl _ hf
  · rcases hsource with hsource | hsource
    · rintro heq
      rw [heq, hsource] at he
      exact lt_irrefl _ he
    · exact hr.ne htarget hsource

/-- Fragments between the same points, with their other points in rectangles apart from each
other. -/
theorem sum {ι : Type} {items : List ι} {E : ι → Set Edge} {L : ι → Language Token}
    {r : ι → Rect} (hst : s.1 < t.1) (h : ∀ i ∈ items, Fragment (E i) s t (L i))
    (hr : ∀ i ∈ items, ∀ e ∈ E i,
      (e.source = s ∨ e.source ∈ r i) ∧ (e.target = t ∨ e.target ∈ r i))
    (hapart : items.Pairwise fun i j => (r i).Apart (r j)) :
    Fragment {e | ∃ i ∈ items, e ∈ E i} s t (items.map L).sum := by
  induction items with
  | nil => exact (none hst).congr (by simp) (by simp)
  | cons i rest ih =>
    obtain ⟨hi, hrest⟩ := List.forall_mem_cons.mp h
    obtain ⟨hri, hrrest⟩ := List.forall_mem_cons.mp hr
    obtain ⟨hapart, hpair⟩ := List.pairwise_cons.mp hapart
    refine (hi.add (ih hrest hrrest hpair) ?_).congr ?_ List.sum_cons
    · rintro e he f ⟨j, hj, hf⟩
      exact ⟨target_ne_source (hi.target_mem e he).1 ((hrest j hj).source_mem f hf).2
          (hri e he).2 (hrrest j hj f hf).1 (hapart j hj),
        target_ne_source ((hrest j hj).target_mem f hf).1 (hi.source_mem e he).2
          (hrrest j hj f hf).2 (hri e he).1 (hapart j hj).symm⟩
    · ext e
      simp

/-! ### In a loop -/

/-- The edges of a loop: to the fragment from `l` to `r`, from it, and back. -/
def loopEdges (s l r t : Point) : Set Edge :=
  {⟨s, l, .none⟩, ⟨r, t, .none⟩, ⟨r, l, .none⟩}

section loop

variable {l r : Point}

/-- The edges of a loop start within its columns. -/
theorem source_mem_loop (h : Fragment E l r L) (hsl : s.1 < l.1) (hrt : r.1 < t.1) :
    ∀ e ∈ loopEdges s l r t ∪ E, s.1 ≤ e.source.1 ∧ e.source.1 < t.1 := by
  have hlr := h.le
  rintro e ((rfl | rfl | rfl) | he)
  · dsimp only
    omega
  · dsimp only
    omega
  · dsimp only
    omega
  · have := h.source_mem e he
    omega

/-- The edges of a loop lead into its columns. -/
theorem target_mem_loop (h : Fragment E l r L) (hsl : s.1 < l.1) (hrt : r.1 < t.1) :
    ∀ e ∈ loopEdges s l r t ∪ E, s.1 < e.target.1 ∧ (e.target = t ∨ e.target.1 < t.1) := by
  have hlr := h.le
  rintro e ((rfl | rfl | rfl) | he)
  · exact ⟨hsl, Or.inr (hlr.trans_lt hrt)⟩
  · exact ⟨by dsimp only; omega, Or.inl rfl⟩
  · exact ⟨hsl, Or.inr (hlr.trans_lt hrt)⟩
  · obtain ⟨hle, her⟩ := h.target_mem e he
    refine ⟨by omega, Or.inr ?_⟩
    rcases her with her | her
    · rwa [her]
    · omega

/-- A route from inside of a loop leads to the end of the fragment, and then any number of times
through it. -/
theorem route_loop (h : Fragment E l r L) (hsl : s.1 < l.1) (hrt : r.1 < t.1) {p : Point}
    {w : List Token} (hlp : l.1 ≤ p.1) (hpr : p = r ∨ p.1 < r.1)
    (hw : Route (loopEdges s l r t ∪ E) p w t) :
    ∃ v v', Route E p v r ∧ v' ∈ KStar.kstar L ∧ v ++ v' = w := by
  generalize hG : loopEdges s l r t ∪ E = G at hw
  have hlr := h.le
  induction hw with
  | nil p =>
    rcases hpr with rfl | hpr
    · exact absurd hrt (lt_irrefl _)
    · omega
  | @cons e w q mem rest ih =>
    rw [← hG] at mem
    rcases mem with (rfl | rfl | rfl) | he
    · exact absurd hsl hlp.not_gt
    · -- out of the loop, to its end, from where nothing leads on
      have hstop := rest.eq_of_forall_ne fun e he => by
        rw [← hG] at he
        have := (source_mem_loop h hsl hrt e he).2
        rintro rfl
        exact lt_irrefl _ this
      exact ⟨[], [], .nil r, Language.nil_mem_kstar L, by rw [hstop.2]; rfl⟩
    · -- back to the start of the fragment, for one more time through it
      obtain ⟨v, v', hv, hv', rfl⟩ := ih hrt le_rfl h.ends hG
      have hagain : v ++ v' ∈ 1 + L * KStar.kstar L :=
        Or.inr (Language.append_mem_mul ((h.route_iff v).mp hv) hv')
      rw [Language.one_add_self_mul_kstar_eq_kstar] at hagain
      exact ⟨[], v ++ v', .nil r, hagain, rfl⟩
    · obtain ⟨hle, her⟩ := h.target_mem e he
      obtain ⟨v, v', hv, hv', rfl⟩ := ih hrt hle.le her hG
      exact ⟨_, v', .cons he hv, hv', List.append_assoc ..⟩

/-- A fragment in a loop is passed once or more often. -/
theorem loop (h : Fragment E l r L) (hsl : s.1 < l.1) (hrt : r.1 < t.1) :
    Fragment (loopEdges s l r t ∪ E) s t (L * KStar.kstar L) where
  ends := Or.inr (hsl.trans (h.le.trans_lt hrt))
  source_mem := source_mem_loop h hsl hrt
  target_mem := target_mem_loop h hsl hrt
  route_iff := fun w => by
    have hlr := h.le
    rw [Language.mem_mul]
    constructor
    · intro hw
      -- the only way out of the start leads to the fragment
      rcases hw.inv with ⟨rfl, -⟩ | ⟨e, (rfl | rfl | rfl) | he, v, hs, rfl, hv⟩
      · omega
      · obtain ⟨v, v', hfirst, hv', rfl⟩ := route_loop h hsl hrt le_rfl h.ends hv
        exact ⟨v, (h.route_iff v).mp hfirst, v', hv', rfl⟩
      · dsimp only at hs
        rw [hs] at hsl
        omega
      · dsimp only at hs
        rw [hs] at hsl
        omega
      · have := (h.source_mem e he).1
        rw [hs] at hsl
        omega
    · rintro ⟨v, hv, v', ⟨words, rfl, hwords⟩, rfl⟩
      have hin : Route (loopEdges s l r t ∪ E) s [] l :=
        .single (e := ⟨s, l, .none⟩) (Or.inl (Or.inl rfl))
      have hout : Route (loopEdges s l r t ∪ E) r [] t :=
        .single (e := ⟨r, t, .none⟩) (Or.inl (Or.inr (Or.inl rfl)))
      have hback : Route (loopEdges s l r t ∪ E) r [] l :=
        .single (e := ⟨r, l, .none⟩) (Or.inl (Or.inr (Or.inr rfl)))
      have hthrough {v : List Token} (hv : v ∈ L) : Route (loopEdges s l r t ∪ E) l v r :=
        ((h.route_iff v).mpr hv).mono Set.subset_union_right
      refine hin.append ?_
      -- on the words that are still to come, whatever word is read first
      induction words generalizing v with
      | nil => exact (hthrough hv).append hout
      | cons word words ih =>
        obtain ⟨hword, hwords⟩ := List.forall_mem_cons.mp hwords
        exact (hthrough hv).append (hback.append (ih word hword hwords))

end loop

end Fragment

end SyntaxDiagram
