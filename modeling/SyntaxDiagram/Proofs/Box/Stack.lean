import SyntaxDiagram.Box.Build
import Mathlib.Data.Int.Order.Basic
import Mathlib.Order.MinMax

/-!
# The items of a branch

`Box.tiers` lists the items of a branch with their offsets, from top to bottom.  For a branch made
by `Box.stacked` the items above and below the main one are fanned out (`tiers_stacked`), so that
between any two there is the separation of the metrics (`pairwise_tiers_stacked`), every offset but
the main one leaves room for two arcs (`offset_of_mem_tiers_stacked`), and the sizes of the branch
bound all of its items (`up_le_of_mem_tiers_stacked`, `le_down_of_mem_tiers_stacked`).
-/

namespace SyntaxDiagram

/-! ### The greatest of some integers -/

/-- The greatest number reaches a bound iff some number does. -/
theorem le_greatest_iff {bound first : Int} {rest : List Int} :
    bound ≤ greatest first rest ↔ bound ≤ first ∨ ∃ n ∈ rest, bound ≤ n := by
  induction rest generalizing first with
  | nil => simp [greatest]
  | cons n rest ih =>
    have h : greatest first (n :: rest) = greatest (max first n) rest := rfl
    rw [h, ih, le_max_iff]
    simp only [List.mem_cons, exists_eq_or_imp, or_assoc]

theorem first_le_greatest (first : Int) (rest : List Int) : first ≤ greatest first rest :=
  le_greatest_iff.mpr (Or.inl le_rfl)

theorem le_greatest_of_mem {n first : Int} {rest : List Int} (h : n ∈ rest) :
    n ≤ greatest first rest :=
  le_greatest_iff.mpr (Or.inr ⟨n, h, le_rfl⟩)

/-! ### Fanning out -/

section fan

variable {β : Type} {m : Metrics} {reach : β → Int × Int}

/-- Some items with the distances at which they are fanned out. -/
def fanned (m : Metrics) (bend away distance : Int) (reach : β → Int × Int) (items : List β) :
    List (Int × β) :=
  ((fan m bend away distance (items.map reach)).map (·.2)).zip items

/-- The first item of a fan, and the fan of the others from where it is. -/
theorem fanned_cons (bend away distance : Int) (item : β) (items : List β) :
    fanned m bend away distance reach (item :: items) =
      let separator := m.separation + max 0 (bend - (away + m.separation + (reach item).1))
      let distance' := distance + (away + separator + (reach item).1)
      (distance', item) :: fanned m m.arcRadius (reach item).2 distance' reach items := rfl

/-- Every item lies beyond the one before it, with the separation in between, and far enough away
for the arcs that lead to it. -/
theorem distance_of_mem_fanned (hs : 0 ≤ m.separation) {bend away distance : Int} {items : List β}
    (hr : ∀ item ∈ items, 0 ≤ (reach item).1 ∧ 0 ≤ (reach item).2) :
    ∀ t ∈ fanned m bend away distance reach items,
      distance + away + m.separation ≤ t.1 - (reach t.2).1 ∧ distance + bend ≤ t.1 := by
  induction items generalizing bend away distance with
  | nil => simp [fanned]
  | cons item items ih =>
    have hitem := hr item (List.mem_cons_self ..)
    rw [fanned_cons]
    intro t ht
    rcases List.mem_cons.mp ht with rfl | ht
    · -- the separator makes up for what the arcs need beyond the separation
      dsimp only
      omega
    · -- the items after this one start from where it ends
      have htail := ih (fun i hi => hr i (List.mem_cons_of_mem _ hi)) t ht
      have ht' := (hr t.2 (List.mem_cons_of_mem _ (List.of_mem_zip ht).2)).1
      omega

/-- Of two items of a fan, the farther one lies beyond the nearer one and the separation. -/
theorem pairwise_fanned (reach : β → Int × Int) (hs : 0 ≤ m.separation)
    {bend away distance : Int} {items : List β}
    (hr : ∀ item ∈ items, 0 ≤ (reach item).1 ∧ 0 ≤ (reach item).2) :
    (fanned m bend away distance reach items).Pairwise fun s t =>
      s.1 + (reach s.2).2 + m.separation ≤ t.1 - (reach t.2).1 := by
  induction items generalizing bend away distance with
  | nil => simp [fanned]
  | cons item items ih =>
    have htail := fun i hi => hr i (List.mem_cons_of_mem item hi)
    rw [fanned_cons, List.pairwise_cons]
    exact ⟨fun t ht => (distance_of_mem_fanned hs htail t ht).1, ih htail⟩

/-- The distances of fanned items are those of the fan of their reaches. -/
theorem map_fst_fanned (reach : β → Int × Int) (bend away distance : Int) (items : List β) :
    (fanned m bend away distance reach items).map Prod.fst =
      (fan m bend away distance (items.map reach)).map (·.2) :=
  List.map_fst_zip (by simp [length_fan])

theorem map_snd_fanned (reach : β → Int × Int) (bend away distance : Int) (items : List β) :
    (fanned m bend away distance reach items).map Prod.snd = items :=
  List.map_snd_zip (by simp [length_fan])

end fan

namespace Box

variable {α : Type}

/-! ### Tiers -/

/-- The items of a branch with their offsets. -/
def tiers : Box α → List (Int × Box α)
  | .branch _ _ _ offsets items => offsets.zip items
  | _ => []

/-- The first item is above the second one, with some height in between. -/
def Clears (separation : Int) (s t : Int × Box α) : Prop :=
  s.1 + s.2.down + separation ≤ t.1 - t.2.up

/-- The offsets of the items of a branch. -/
def offsets : Box α → List Int
  | .branch _ _ _ offsets _ => offsets
  | _ => []

/-- The items above the main one with their distances from it, nearest first. -/
def upperTiers (m : Metrics) (above : List (Box α)) (main : Box α) : List (Int × Box α) :=
  fanned m (2 * m.arcRadius) main.up 0 (fun item => (item.down, item.up)) above.reverse

/-- The items below the main one with their distances from it, nearest first. -/
def lowerTiers (m : Metrics) (main : Box α) (below : List (Box α)) : List (Int × Box α) :=
  fanned m (2 * m.arcRadius) main.down 0 (fun item => (item.up, item.down)) below

variable {m : Metrics} {above below : List (Box α)} {main : Box α}

section tiers

variable [Inhabited α]

theorem map_fst_tiers_stacked :
    (stacked m above main below).tiers.map Prod.fst = (stacked m above main below).offsets := by
  simp only [tiers, offsets, stacked]
  exact List.map_fst_zip (by simp [length_fan])

theorem map_snd_tiers_stacked :
    (stacked m above main below).tiers.map Prod.snd = above ++ main :: below := by
  simp only [tiers, stacked]
  exact List.map_snd_zip (by simp [length_fan])

/-- From top to bottom: the items above the main one from the farthest to the nearest, the main
one, the items below it from the nearest to the farthest. -/
theorem tiers_stacked :
    (stacked m above main below).tiers =
      ((upperTiers m above main).map fun t => (-t.1, t.2)).reverse ++
        (0, main) :: lowerTiers m main below := by
  have hupper := congrArg (List.map fun n : Int => -n)
    (map_fst_fanned (m := m) (fun item : Box α => (item.down, item.up)) (2 * m.arcRadius) main.up 0
      above.reverse)
  simp only [tiers, stacked]
  -- a list of pairs is known by its two halves
  symm
  apply List.zip_of_prod
  · simp only [List.map_map, Function.comp_def] at hupper
    simp only [List.map_append, List.map_reverse, List.map_map, List.map_cons, Function.comp_def,
      upperTiers, lowerTiers, map_fst_fanned, hupper]
  · simp only [List.map_append, List.map_reverse, List.map_map, List.map_cons, Function.comp_def,
      upperTiers, lowerTiers, map_snd_fanned]
    simp only [List.reverse_reverse]

/-- Each tier of a branch holds one of its items. -/
theorem mem_of_mem_tiers_stacked {t : Int × Box α} (ht : t ∈ (stacked m above main below).tiers) :
    t.2 ∈ above ++ main :: below := by
  rw [← map_snd_tiers_stacked (m := m)]
  exact List.mem_map_of_mem ht

/-- Each item of a branch fits between the arcs on either side. -/
theorem width_le_of_mem_stacked {item : Box α} (h : item ∈ above ++ main :: below) :
    item.width ≤ (stacked m above main below).width - 4 * m.arcRadius := by
  have hwidth : (stacked m above main below).width =
      4 * m.arcRadius + greatest main.width ((above ++ below).map Box.width) := rfl
  have hle : item.width ≤ greatest main.width ((above ++ below).map Box.width) := by
    simp only [List.mem_append, List.mem_cons] at h
    rcases h with h | rfl | h
    · exact le_greatest_of_mem (List.mem_map_of_mem (List.mem_append_left _ h))
    · exact first_le_greatest _ _
    · exact le_greatest_of_mem (List.mem_map_of_mem (List.mem_append_right _ h))
  omega

end tiers

/-! ### Separation -/

section separation

variable (hs : 0 ≤ m.separation)
  (hitems : ∀ item ∈ above ++ main :: below, 0 ≤ item.up ∧ 0 ≤ item.down)

include hs hitems

/-- What is above the main item keeps the separation and two radii. -/
theorem distance_of_mem_upperTiers : ∀ t ∈ upperTiers m above main,
    main.up + m.separation ≤ t.1 - t.2.down ∧ 2 * m.arcRadius ≤ t.1 := by
  intro t ht
  have h := distance_of_mem_fanned hs (fun item hi => ?_) t ht
  · omega
  · have := hitems item (List.mem_append_left _ (List.mem_reverse.mp hi))
    exact ⟨this.2, this.1⟩

/-- What is below the main item keeps the separation and two radii. -/
theorem distance_of_mem_lowerTiers : ∀ t ∈ lowerTiers m main below,
    main.down + m.separation ≤ t.1 - t.2.up ∧ 2 * m.arcRadius ≤ t.1 := by
  intro t ht
  have h := distance_of_mem_fanned hs (fun item hi => ?_) t ht
  · omega
  · exact hitems item (List.mem_append_right _ (List.mem_cons_of_mem _ hi))

variable [Inhabited α]

/-- From top to bottom, the tiers of a branch clear each other by the separation. -/
theorem pairwise_tiers_stacked :
    (stacked m above main below).tiers.Pairwise (Clears m.separation) := by
  have hupper := distance_of_mem_upperTiers hs hitems
  have hlower := distance_of_mem_lowerTiers hs hitems
  have hmain := hitems main (by simp)
  rw [tiers_stacked, List.pairwise_append, List.pairwise_reverse, List.pairwise_map,
    List.pairwise_cons]
  -- above, below the main item, and across it
  refine ⟨?_, ⟨?_, ?_⟩, ?_⟩
  · refine (pairwise_fanned _ hs fun item hi => ?_).imp fun {s t} h => ?_
    · have := hitems item (List.mem_append_left _ (List.mem_reverse.mp hi))
      exact ⟨this.2, this.1⟩
    · simp only [Clears]
      omega
  · intro t ht
    have := hlower t ht
    simp only [Clears]
    omega
  · exact pairwise_fanned (fun item : Box α => (item.up, item.down)) hs fun item hi =>
      hitems item (List.mem_append_right _ (List.mem_cons_of_mem _ hi))
  · intro s hsu t ht
    obtain ⟨u, hu, rfl⟩ := List.mem_map.mp (List.mem_reverse.mp hsu)
    have := hupper u hu
    simp only [Clears]
    rcases List.mem_cons.mp ht with rfl | ht
    · dsimp only
      omega
    · have := hlower t ht
      omega

/-- Only the main item is on the main line; the others are two radii or more away from it. -/
theorem offset_of_mem_tiers_stacked {t : Int × Box α}
    (ht : t ∈ (stacked m above main below).tiers) :
    t.1 = 0 ∨ 2 * m.arcRadius ≤ -t.1 ∨ 2 * m.arcRadius ≤ t.1 := by
  rw [tiers_stacked] at ht
  rcases List.mem_append.mp ht with ht | ht
  · obtain ⟨s, hsu, rfl⟩ := List.mem_map.mp (List.mem_reverse.mp ht)
    have := distance_of_mem_upperTiers hs hitems s hsu
    dsimp only
    omega
  · rcases List.mem_cons.mp ht with rfl | ht
    · exact Or.inl rfl
    · exact Or.inr (Or.inr (distance_of_mem_lowerTiers hs hitems t ht).2)

/-- A branch reaches as far up as its first item, and no item reaches farther. -/
theorem up_le_of_mem_tiers_stacked {t : Int × Box α}
    (ht : t ∈ (stacked m above main below).tiers) :
    t.2.up - t.1 ≤ (stacked m above main below).up := by
  have hpair := pairwise_tiers_stacked hs hitems
  have hnonneg := hitems t.2 (mem_of_mem_tiers_stacked ht)
  have hup : (stacked m above main below).up =
      ((above ++ main :: below).headD main).up - (stacked m above main below).offsets.headD 0 := by
    cases above <;> rfl
  rw [hup, ← map_fst_tiers_stacked, ← map_snd_tiers_stacked (m := m)]
  cases htiers : (stacked m above main below).tiers with
  | nil => simp [htiers] at ht
  | cons first rest =>
    rw [htiers] at ht hpair
    -- the first item is the highest one: it clears all of the others
    have hfirst := hitems first.2 (mem_of_mem_tiers_stacked (htiers ▸ List.mem_cons_self ..))
    simp only [List.map_cons, List.headD_cons]
    rcases List.mem_cons.mp ht with rfl | ht
    · exact le_rfl
    · have := (List.pairwise_cons.mp hpair).1 t ht
      simp only [Clears] at this
      omega

/-- A branch reaches as far down as its last item, and no item reaches farther. -/
theorem le_down_of_mem_tiers_stacked {t : Int × Box α}
    (ht : t ∈ (stacked m above main below).tiers) :
    t.1 + t.2.down ≤ (stacked m above main below).down := by
  have hpair := pairwise_tiers_stacked hs hitems
  have hnonneg := hitems t.2 (mem_of_mem_tiers_stacked ht)
  have hdown : (stacked m above main below).down =
      (stacked m above main below).offsets.getLastD 0 +
        ((above ++ main :: below).getLastD main).down := by
    have hlast : (above ++ main :: below).getLastD main = below.getLast?.getD main := by
      simp [List.getLastD_eq_getLast?, List.getLast?_append, List.getLast?_cons]
    rw [hlast]
    rfl
  rw [hdown, ← map_fst_tiers_stacked, ← map_snd_tiers_stacked (m := m)]
  -- the last item is the lowest one: all of the others clear it
  rcases List.eq_nil_or_concat (stacked m above main below).tiers with
    htiers | ⟨rest, last, htiers⟩
  · simp [htiers] at ht
  · have hlast := hitems last.2 (mem_of_mem_tiers_stacked (m := m) (by simp [htiers]))
    rw [htiers, List.concat_eq_append] at ht hpair ⊢
    simp only [List.map_append, List.map_cons, List.map_nil, List.getLastD_concat]
    rcases List.mem_append.mp ht with ht | ht
    · have := (List.pairwise_append.mp hpair).2.2 t ht last (List.mem_cons_self ..)
      simp only [Clears] at this
      omega
    · rw [List.mem_singleton.mp ht]

end separation

end Box

end SyntaxDiagram
