import SyntaxDiagram.Proofs.Box.Stack
import Mathlib.Algebra.BigOperators.Group.List.Basic
import Mathlib.Algebra.Order.Group.Abs
import Mathlib.Algebra.Order.Ring.Int
import Mathlib.Data.List.GetD
import Mathlib.Order.Bounds.Basic

/-!
# How close together the items of a branch are

`Box.Snug` says that some items are stacked in a branch around the main one as close together as the
metrics allow, and `Box.snug_ofBranches` that every branch is.  What is known of each step is
`Metrics.Fits`, which a fan has by induction from the line it starts from (`fits_fan`).  A branch is
fanned out to both sides, upwards against the order of its items, so its lists are read from the
main item outwards (`getD_offsets_above`, `getD_offsets_below`), and its height is the sum of what
it holds (`height_stacked`).
-/

namespace SyntaxDiagram

/-! ### Positions counted from the middle -/

section lists

variable {β : Type} (before after : List β) (fallback : β)

/-- Beyond the first of two lists the second one is read. -/
theorem getD_append_add (k : Nat) :
    (before ++ after).getD (before.length + k) fallback = after.getD k fallback := by
  rw [List.getD_append_right _ _ _ _ (Nat.le_add_right ..), Nat.add_sub_cancel_left]

/-- A reversed list in front is read backwards from its end. -/
theorem getD_reverse_append {k : Nat} (hk : k < before.length) :
    (before.reverse ++ after).getD (before.length - 1 - k) fallback = before.getD k fallback := by
  have hlt : before.length - 1 - k < before.reverse.length := by
    rw [List.length_reverse]
    omega
  rw [List.getD_append _ _ _ _ hlt, List.getD_reverse _ (by omega)]
  congr 1
  omega

end lists

/-! ### One step of a stack -/

/-- The step from one line to the next one takes what the items on the two lines reach into the
space between them and a separator, which makes up for what the arcs need beyond the separation. -/
structure Metrics.Fits (m : Metrics) (arcs inward separator outward step : Int) : Prop where
  step_eq : step = inward + separator + outward
  separator_eq : separator = m.separation + max 0 (arcs - (inward + m.separation + outward))

namespace Metrics.Fits

variable {m : Metrics} {arcs inward separator outward step : Int}

/-- A step fits from either of its two lines. -/
theorem symm (h : m.Fits arcs inward separator outward step) :
    m.Fits arcs outward separator inward step := by
  obtain ⟨hstep, hseparator⟩ := h
  constructor <;> omega

/-- The step is the greater one of what the items need and what the arcs need. -/
theorem step_eq_max (h : m.Fits arcs inward separator outward step) :
    step = max (inward + m.separation + outward) arcs := by
  obtain ⟨hstep, hseparator⟩ := h
  omega

/-- No separator falls below the separation. -/
theorem separation_le (h : m.Fits arcs inward separator outward step) :
    m.separation ≤ separator := by
  have := h.separator_eq
  omega

end Metrics.Fits

/-! ### Fanning out, step by step -/

section fan

variable {m : Metrics}

/-- The step of a fan from one line to the next one, the first of them from the line in front. -/
theorem fits_fan (bend away distance : Int) (reaches : List (Int × Int)) {k : Nat}
    (hk : k < reaches.length) :
    m.Fits (if k = 0 then bend else m.arcRadius) ((away :: reaches.map (·.2)).getD k 0)
      (((fan m bend away distance reaches).map (·.1)).getD k 0) ((reaches.map (·.1)).getD k 0)
      ((distance :: (fan m bend away distance reaches).map (·.2)).getD (k + 1) 0 -
        (distance :: (fan m bend away distance reaches).map (·.2)).getD k 0) := by
  induction reaches generalizing bend away distance k with
  | nil => exact absurd hk (Nat.not_lt_zero k)
  | cons reach rest ih =>
    obtain ⟨towards, away'⟩ := reach
    cases k with
    | zero =>
      constructor
      · simp only [fan, List.map_cons, List.getD_cons_succ, List.getD_cons_zero]
        omega
      · rfl
    | succ k =>
      -- the rest of the fan starts from its first line, and needs one radius everywhere
      have h := ih m.arcRadius away' (distance + (away + (m.separation +
        max 0 (bend - (away + m.separation + towards))) + towards)) (Nat.lt_of_succ_lt_succ hk)
      rw [ite_self] at h
      rw [if_neg (Nat.succ_ne_zero k)]
      exact h

/-- The last line of a fan, and what its item reaches beyond it, is as far away as the separators
and all items take together. -/
theorem getLastD_fan (bend away distance : Int) (reaches : List (Int × Int)) :
    ((fan m bend away distance reaches).map (·.2)).getLastD distance +
        (reaches.map (·.2)).getLastD away =
      distance + away + (reaches.map fun reach => reach.1 + reach.2).sum +
        ((fan m bend away distance reaches).map (·.1)).sum := by
  induction reaches generalizing bend away distance with
  | nil => simp [fan]
  | cons reach rest ih =>
    obtain ⟨towards, away'⟩ := reach
    simp only [fan, List.map_cons, List.getLastD_cons, List.sum_cons, ih]
    omega

end fan

namespace Box

variable {α : Type}

/-! ### Branches -/

/-- The separators between the items of a branch. -/
def separators : Box α → List Int
  | .branch _ _ separators _ _ => separators
  | _ => []

/-- The height that the arcs between the line of an item of a branch and the next one need: two
radii next to the main line, one elsewhere. -/
def arcHeight (m : Metrics) (mainIndex i : Nat) : Int :=
  if mainIndex = i ∨ mainIndex = i + 1 then 2 * m.arcRadius else m.arcRadius

/-- The items are stacked in a branch around the main one, in order, and as close together as the
metrics allow. -/
structure Snug (m : Metrics) (mainIndex : Nat) (items : List (Box α)) (branch : Box α) : Prop where
  children_eq : branch.children = items
  length_offsets : branch.offsets.length = items.length
  length_separators : branch.separators.length + 1 = items.length
  offset_main (h : mainIndex < items.length) : branch.offsets[mainIndex] = 0
  offset_step (i : Nat) (h : i + 1 < items.length) :
    branch.offsets[i + 1] - branch.offsets[i] =
      items[i].down + branch.separators[i] + items[i + 1].up
  offset_step_max (i : Nat) (h : i + 1 < items.length) :
    branch.offsets[i + 1] - branch.offsets[i] =
      max (items[i].down + m.separation + items[i + 1].up) (arcHeight m mainIndex i)
  separation_le (i : Nat) (h : i + 1 < items.length) : m.separation ≤ branch.separators[i]
  two_radii_le (i : Nat) (h : i < items.length) (hi : i ≠ mainIndex) :
    2 * m.arcRadius ≤ |branch.offsets[i]|
  neg_above (i : Nat) (h : i < items.length) (hi : i < mainIndex) (hr : 0 < m.arcRadius) :
    branch.offsets[i] < 0
  pos_below (i : Nat) (h : i < items.length) (hi : mainIndex < i) (hr : 0 < m.arcRadius) :
    0 < branch.offsets[i]
  isGreatest_up :
    IsGreatest {n | ∃ (i : Nat) (_ : i < items.length), n = items[i].up - branch.offsets[i]}
      branch.up
  isGreatest_down :
    IsGreatest {n | ∃ (i : Nat) (_ : i < items.length), n = branch.offsets[i] + items[i].down}
      branch.down
  height_eq : branch.up + branch.down =
    (items.map fun item => item.frame.height).sum + branch.separators.sum

variable {m : Metrics} {above below : List (Box α)} {main : Box α}

/-- The fan of the items above the main one, nearest first. -/
def upperFan (m : Metrics) (above : List (Box α)) (main : Box α) : List (Int × Int) :=
  fan m (2 * m.arcRadius) main.up 0 (above.reverse.map fun item => (item.down, item.up))

/-- The fan of the items below the main one, nearest first. -/
def lowerFan (m : Metrics) (main : Box α) (below : List (Box α)) : List (Int × Int) :=
  fan m (2 * m.arcRadius) main.down 0 (below.map fun item => (item.up, item.down))

theorem length_upperFan : (upperFan m above main).length = above.length := by
  rw [upperFan, length_fan, List.length_map, List.length_reverse]

theorem length_lowerFan : (lowerFan m main below).length = below.length := by
  rw [lowerFan, length_fan, List.length_map]

/-- Each step of the fan above the main item fits. -/
theorem fits_upperFan {k : Nat} (hk : k < above.length) :
    m.Fits (if k = 0 then 2 * m.arcRadius else m.arcRadius)
      ((main.up :: above.reverse.map up).getD k 0)
      (((upperFan m above main).map (·.1)).getD k 0)
      ((above.reverse.map down).getD k 0)
      ((0 :: (upperFan m above main).map (·.2)).getD (k + 1) 0 -
        (0 :: (upperFan m above main).map (·.2)).getD k 0) := by
  have h := fits_fan (m := m) (2 * m.arcRadius) main.up 0
    (above.reverse.map fun item => (item.down, item.up)) (k := k) (by simpa using hk)
  rw [List.map_map, List.map_map] at h
  exact h

/-- Each step of the fan below the main item fits. -/
theorem fits_lowerFan {k : Nat} (hk : k < below.length) :
    m.Fits (if k = 0 then 2 * m.arcRadius else m.arcRadius)
      ((main.down :: below.map down).getD k 0)
      (((lowerFan m main below).map (·.1)).getD k 0)
      ((below.map up).getD k 0)
      ((0 :: (lowerFan m main below).map (·.2)).getD (k + 1) 0 -
        (0 :: (lowerFan m main below).map (·.2)).getD k 0) := by
  have h := fits_fan (m := m) (2 * m.arcRadius) main.down 0
    (below.map fun item => (item.up, item.down)) (k := k) (by simpa using hk)
  rw [List.map_map, List.map_map] at h
  exact h

/-- A size of the items of a branch, counted from the main one upwards. -/
theorem getD_map_above (size : Box α → Int) {k : Nat} (hk : k ≤ above.length) :
    ((above ++ main :: below).map size).getD (above.length - k) 0 =
      (size main :: above.reverse.map size).getD k 0 := by
  have h : (above ++ main :: below).map size =
      (size main :: above.reverse.map size).reverse ++ below.map size := by
    simp
  have hlength : (size main :: above.reverse.map size).length = above.length + 1 := by
    simp
  have hindex : above.length - k = (size main :: above.reverse.map size).length - 1 - k := by
    omega
  rw [h, hindex, getD_reverse_append _ _ _ (by omega)]

/-- A size of the items of a branch, counted from the main one downwards. -/
theorem getD_map_below (size : Box α → Int) (k : Nat) :
    ((above ++ main :: below).map size).getD (above.length + k) 0 =
      (size main :: below.map size).getD k 0 := by
  have hlength : above.length = (above.map size).length := by
    rw [List.length_map]
  rw [List.map_append, hlength, getD_append_add, List.map_cons]

/-- The last of the sizes going up is that of the item at the top. -/
theorem getLastD_reverse_map (size : Box α → Int) :
    (above.reverse.map size).getLastD (size main) = size (above.head?.getD main) := by
  cases above with
  | nil => rfl
  | cons first rest => simp

variable [Inhabited α]

/-- Offsets come from the fans: above the main line negative and farthest first. -/
theorem offsets_stacked : (stacked m above main below).offsets =
    (((upperFan m above main).map (·.2)).map fun n => -n).reverse ++
      0 :: (lowerFan m main below).map (·.2) := by
  simp only [offsets, stacked, upperFan, lowerFan, List.map_reverse, List.map_map,
    Function.comp_def]

/-- Separators come from the fans as well, in order from the top. -/
theorem separators_stacked : (stacked m above main below).separators =
    ((upperFan m above main).map (·.1)).reverse ++ (lowerFan m main below).map (·.1) := by
  simp only [separators, stacked, upperFan, lowerFan, List.map_reverse]

/-- Above the main line offsets are counted from it, nearest first. -/
theorem getD_offsets_above {k : Nat} (hk : k ≤ above.length) :
    (stacked m above main below).offsets.getD (above.length - k) 0 =
      -(0 :: (upperFan m above main).map (·.2)).getD k 0 := by
  have hlength : (upperFan m above main).length = above.length := length_upperFan
  have h : (stacked m above main below).offsets =
      ((0 :: (upperFan m above main).map (·.2)).map fun n => -n).reverse ++
        (lowerFan m main below).map (·.2) := by
    rw [offsets_stacked, List.map_cons, List.reverse_cons, List.append_assoc, neg_zero]
    rfl
  have hindex : above.length - k =
      ((0 :: (upperFan m above main).map (·.2)).map fun n => -n).length - 1 - k := by
    simp only [List.length_map, List.length_cons]
    omega
  have hlt : k < ((0 :: (upperFan m above main).map (·.2)).map fun n => -n).length := by
    simp only [List.length_map, List.length_cons]
    omega
  rw [h, hindex, getD_reverse_append _ _ _ hlt]
  have hmap := List.getD_map (0 :: (upperFan m above main).map (·.2)) 0 (n := k) fun n : Int => -n
  rwa [neg_zero] at hmap

/-- Below the main line offsets are counted from it, nearest first. -/
theorem getD_offsets_below (k : Nat) :
    (stacked m above main below).offsets.getD (above.length + k) 0 =
      (0 :: (lowerFan m main below).map (·.2)).getD k 0 := by
  have hlength : above.length =
      (((upperFan m above main).map (·.2)).map fun n => -n).reverse.length := by
    simp only [List.length_reverse, List.length_map, length_upperFan]
  rw [offsets_stacked, hlength, getD_append_add]

/-- Above the main line separators are counted from it, nearest first. -/
theorem getD_separators_above {k : Nat} (hk : k < above.length) :
    (stacked m above main below).separators.getD (above.length - 1 - k) 0 =
      ((upperFan m above main).map (·.1)).getD k 0 := by
  have hlength : above.length = ((upperFan m above main).map (·.1)).length := by
    rw [List.length_map, length_upperFan]
  rw [hlength] at hk ⊢
  rw [separators_stacked, getD_reverse_append _ _ _ hk]

/-- Below the main line separators are counted from it, nearest first. -/
theorem getD_separators_below (k : Nat) :
    (stacked m above main below).separators.getD (above.length + k) 0 =
      ((lowerFan m main below).map (·.1)).getD k 0 := by
  have hlength : above.length = ((upperFan m above main).map (·.1)).reverse.length := by
    rw [List.length_reverse, List.length_map, length_upperFan]
  rw [separators_stacked, hlength, getD_append_add]

/-- The step from the line of an item to the next one, above the main line and below it. -/
theorem fits_stacked {i : Nat} (hi : i + 1 < (above ++ main :: below).length) :
    m.Fits (arcHeight m above.length i)
      (((above ++ main :: below).map down).getD i 0)
      ((stacked m above main below).separators.getD i 0)
      (((above ++ main :: below).map up).getD (i + 1) 0)
      ((stacked m above main below).offsets.getD (i + 1) 0 -
        (stacked m above main below).offsets.getD i 0) := by
  have hlength : (above ++ main :: below).length = above.length + (below.length + 1) := by
    rw [List.length_append, List.length_cons]
  rcases lt_or_ge i above.length with habove | hbelow
  · -- the upper of the two items is number `k + 1` above the main one
    obtain ⟨k, hk, rfl⟩ : ∃ k < above.length, i = above.length - (k + 1) :=
      ⟨above.length - (i + 1), by omega, by omega⟩
    have hnext : above.length - (k + 1) + 1 = above.length - k := by omega
    have harcs : arcHeight m above.length (above.length - (k + 1)) =
        if k = 0 then 2 * m.arcRadius else m.arcRadius := by
      rw [arcHeight]
      exact if_congr (by omega) rfl rfl
    have hsep : above.length - (k + 1) = above.length - 1 - k := by omega
    rw [harcs, hnext, getD_offsets_above hk, getD_offsets_above hk.le, getD_map_above up hk.le,
      getD_map_above down hk, hsep, getD_separators_above hk]
    have hstep (a b : Int) : -a - -b = b - a := by omega
    rw [hstep]
    exact (fits_upperFan hk).symm
  · -- the lower of the two items is number `k + 1` below the main one
    obtain ⟨k, rfl⟩ : ∃ k, i = above.length + k := ⟨i - above.length, by omega⟩
    have hk : k < below.length := by omega
    have harcs : arcHeight m above.length (above.length + k) =
        if k = 0 then 2 * m.arcRadius else m.arcRadius := by
      rw [arcHeight]
      exact if_congr (by omega) rfl rfl
    rw [harcs, add_assoc, getD_offsets_below, getD_offsets_below, getD_map_below, getD_map_below,
      getD_separators_below]
    exact fits_lowerFan hk

/-! ### Sizes -/

/-- The items above the main one and the separators between them take all that a branch has above
the main item. -/
theorem up_stacked : (stacked m above main below).up =
    main.up + (above.map fun item => item.frame.height).sum +
      ((upperFan m above main).map (·.1)).sum := by
  have hup : (stacked m above main below).up =
      (above.head?.getD main).up - (stacked m above main below).offsets.headD 0 := rfl
  have hhead : (stacked m above main below).offsets.headD 0 =
      -((upperFan m above main).map (·.2)).getLastD 0 := by
    rw [offsets_stacked]
    rcases List.eq_nil_or_concat ((upperFan m above main).map (·.2)) with h | ⟨rest, last, h⟩
    · rw [h]
      rfl
    · rw [h]
      simp
  have hfirst : (above.reverse.map up).getLastD main.up = (above.head?.getD main).up :=
    getLastD_reverse_map up
  -- the fan spreads from the main branch outwards, so it sees the branches above reversed
  have hfan : ((upperFan m above main).map (·.2)).getLastD 0 +
      ((above.reverse.map fun item => (item.down, item.up)).map (·.2)).getLastD main.up =
        0 + main.up + ((above.reverse.map fun item => (item.down, item.up)).map
          fun reach => reach.1 + reach.2).sum + ((upperFan m above main).map (·.1)).sum :=
    getLastD_fan ..
  have hheights : ((above.reverse.map fun item => (item.down, item.up)).map
      fun reach => reach.1 + reach.2).sum = (above.map fun item => item.frame.height).sum := by
    rw [List.map_map, ← List.sum_reverse, ← List.map_reverse, List.reverse_reverse]
    exact congrArg List.sum (List.map_congr_left fun item _ => add_comm ..)
  rw [List.map_map] at hfan
  change _ + (above.reverse.map up).getLastD main.up = _ at hfan
  omega

/-- The items below the main one and the separators between them take all that a branch has below
the main item. -/
theorem down_stacked : (stacked m above main below).down =
    main.down + (below.map fun item => item.frame.height).sum +
      ((lowerFan m main below).map (·.1)).sum := by
  have hdown : (stacked m above main below).down =
      (stacked m above main below).offsets.getLastD 0 + (below.getLast?.getD main).down := rfl
  have hlast : (stacked m above main below).offsets.getLastD 0 =
      ((lowerFan m main below).map (·.2)).getLastD 0 := by
    rw [offsets_stacked, List.getLastD_eq_getLast?, List.getLast?_append, List.getLast?_cons,
      List.getLastD_eq_getLast?]
    rfl
  have hitem : (below.map down).getLastD main.down = (below.getLast?.getD main).down := by
    rw [List.getLastD_eq_getLast?, List.getLast?_map]
    cases below.getLast? <;> rfl
  have hfan : ((lowerFan m main below).map (·.2)).getLastD 0 +
      ((below.map fun item => (item.up, item.down)).map (·.2)).getLastD main.down =
        0 + main.down + ((below.map fun item => (item.up, item.down)).map
          fun reach => reach.1 + reach.2).sum + ((lowerFan m main below).map (·.1)).sum :=
    getLastD_fan ..
  rw [List.map_map, List.map_map] at hfan
  change _ + (below.map down).getLastD main.down =
    0 + main.down + (below.map fun item => item.frame.height).sum + _ at hfan
  omega

/-- A branch is as high as its items and the separators between them, together. -/
theorem height_stacked :
    (stacked m above main below).up + (stacked m above main below).down =
      ((above ++ main :: below).map fun item => item.frame.height).sum +
        (stacked m above main below).separators.sum := by
  have hmain : main.frame.height = main.up + main.down := rfl
  rw [up_stacked, down_stacked, separators_stacked, List.map_append, List.map_cons,
    List.sum_append, List.sum_append, List.sum_cons, List.sum_reverse, hmain]
  omega

theorem length_offsets_stacked :
    (stacked m above main below).offsets.length = (above ++ main :: below).length := by
  simp only [offsets_stacked, List.length_append, List.length_reverse, List.length_map,
    List.length_cons, length_upperFan, length_lowerFan]

/-- There is one separator fewer than there are items. -/
theorem length_separators_stacked :
    (stacked m above main below).separators.length + 1 = (above ++ main :: below).length := by
  simp only [separators_stacked, List.length_append, List.length_reverse, List.length_map,
    List.length_cons, length_upperFan, length_lowerFan]
  omega

/-! ### Offsets -/

section nonneg

variable (hs : 0 ≤ m.separation)
  (hitems : ∀ item ∈ above ++ main :: below, 0 ≤ item.up ∧ 0 ≤ item.down)

include hs hitems

/-- What is above the main line is two radii above it at least. -/
theorem offset_above_le {i : Nat} (hi : i < above.length) :
    (stacked m above main below).offsets.getD i 0 ≤ -(2 * m.arcRadius) := by
  obtain ⟨k, hk, rfl⟩ : ∃ k < above.length, i = above.length - (k + 1) :=
    ⟨above.length - (i + 1), by omega, by omega⟩
  have hlt : k < ((upperFan m above main).map (·.2)).length := by
    rw [List.length_map, length_upperFan]
    exact hk
  have hmem : ((upperFan m above main).map (·.2))[k] ∈ (upperTiers m above main).map Prod.fst := by
    rw [upperTiers, map_fst_fanned]
    exact List.getElem_mem hlt
  obtain ⟨t, ht, hdistance⟩ := List.mem_map.mp hmem
  have hfar := (distance_of_mem_upperTiers hs hitems t ht).2
  rw [getD_offsets_above hk, List.getD_cons_succ, List.getD_eq_getElem _ _ hlt, ← hdistance]
  omega

/-- What is below the main line is two radii below it at least. -/
theorem le_offset_below {i : Nat} (hi : above.length < i)
    (hlength : i < (above ++ main :: below).length) :
    2 * m.arcRadius ≤ (stacked m above main below).offsets.getD i 0 := by
  obtain ⟨k, rfl⟩ : ∃ k, i = above.length + (k + 1) := ⟨i - (above.length + 1), by omega⟩
  have hlt : k < ((lowerFan m main below).map (·.2)).length := by
    rw [List.length_append, List.length_cons] at hlength
    rw [List.length_map, length_lowerFan]
    omega
  have hmem : ((lowerFan m main below).map (·.2))[k] ∈ (lowerTiers m main below).map Prod.fst := by
    rw [lowerTiers, map_fst_fanned]
    exact List.getElem_mem hlt
  obtain ⟨t, ht, hdistance⟩ := List.mem_map.mp hmem
  have hfar := (distance_of_mem_lowerTiers hs hitems t ht).2
  rw [getD_offsets_below, List.getD_cons_succ, List.getD_eq_getElem _ _ hlt, ← hdistance]
  exact hfar

end nonneg

/-- A branch reaches as far up as its first item does. -/
theorem up_stacked_eq_first : (stacked m above main below).up =
    ((above ++ main :: below).map up).getD 0 0 -
      (stacked m above main below).offsets.getD 0 0 := by
  have hup : (stacked m above main below).up =
      (above.head?.getD main).up - (stacked m above main below).offsets.headD 0 := rfl
  have hfirst : ((above ++ main :: below).map up).getD 0 0 = (above.head?.getD main).up := by
    cases above <;> rfl
  have hhead (l : List Int) : l.headD 0 = l.getD 0 0 := by
    cases l <;> rfl
  rw [hup, hfirst, hhead]

/-- A branch reaches as far down as its last item does. -/
theorem down_stacked_eq_last : (stacked m above main below).down =
    (stacked m above main below).offsets.getD (above.length + below.length) 0 +
      ((above ++ main :: below).map down).getD (above.length + below.length) 0 := by
  have hdown : (stacked m above main below).down =
      (stacked m above main below).offsets.getLastD 0 + (below.getLast?.getD main).down := rfl
  have hlength : (stacked m above main below).offsets.length = (above ++ main :: below).length :=
    length_offsets_stacked
  rw [List.length_append, List.length_cons] at hlength
  have hlast : (stacked m above main below).offsets.getLastD 0 =
      (stacked m above main below).offsets.getD (above.length + below.length) 0 := by
    rw [List.getLastD_eq_getLast?, List.getLast?_eq_getElem?, hlength, List.getD_eq_getElem?_getD]
    rfl
  have hitem : ((above ++ main :: below).map down).getD (above.length + below.length) 0 =
      (below.getLast?.getD main).down := by
    rw [getD_map_below]
    rcases List.eq_nil_or_concat below with rfl | ⟨rest, last, rfl⟩
    · rfl
    · simp
  rw [hdown, hlast, hitem]

/-- A branch that is made of items with sizes that are not negative is snug. -/
theorem snug_stacked (hs : 0 ≤ m.separation) (hr : 0 ≤ m.arcRadius)
    (hitems : ∀ item ∈ above ++ main :: below, 0 ≤ item.up ∧ 0 ≤ item.down) :
    Snug m above.length (above ++ main :: below) (stacked m above main below) := by
  have hlength : (above ++ main :: below).length = above.length + below.length + 1 := by
    rw [List.length_append, List.length_cons, add_assoc]
  have hoffsets : (stacked m above main below).offsets.length = (above ++ main :: below).length :=
    length_offsets_stacked
  have hseparators : (stacked m above main below).separators.length + 1 =
      (above ++ main :: below).length := length_separators_stacked
  -- positions in the lists, and positions with a value for those outside of them
  have hoffset (i : Nat) (h : i < (stacked m above main below).offsets.length) :
      (stacked m above main below).offsets[i] = (stacked m above main below).offsets.getD i 0 :=
    (List.getD_eq_getElem _ 0 h).symm
  have hseparator (i : Nat) (h : i < (stacked m above main below).separators.length) :
      (stacked m above main below).separators[i] =
        (stacked m above main below).separators.getD i 0 :=
    (List.getD_eq_getElem _ 0 h).symm
  have hsize (size : Box α → Int) (i : Nat) (h : i < (above ++ main :: below).length) :
      size (above ++ main :: below)[i] = ((above ++ main :: below).map size).getD i 0 := by
    rw [List.getD_eq_getElem _ 0 (by rwa [List.length_map]), List.getElem_map]
  have htier (i : Nat) (h : i < (above ++ main :: below).length) :
      ((stacked m above main below).offsets[i], (above ++ main :: below)[i]) ∈
        (stacked m above main below).tiers := by
    have hzip : (stacked m above main below).tiers =
        (stacked m above main below).offsets.zip (above ++ main :: below) := rfl
    rw [hzip]
    refine List.mem_iff_getElem.mpr ⟨i, ?_, List.getElem_zip⟩
    rw [List.length_zip, hoffsets, min_self]
    exact h
  exact
    { children_eq := rfl
      length_offsets := hoffsets
      length_separators := hseparators
      offset_main := fun h => by
        rw [hoffset]
        exact getD_offsets_below 0
      offset_step := fun i h => by
        rw [hoffset, hoffset, hseparator, hsize down, hsize up]
        exact (fits_stacked h).step_eq
      offset_step_max := fun i h => by
        rw [hoffset, hoffset, hsize down, hsize up]
        exact (fits_stacked h).step_eq_max
      separation_le := fun i h => by
        rw [hseparator]
        exact (fits_stacked h).separation_le
      two_radii_le := fun i h hi => by
        rw [hoffset]
        rcases lt_or_gt_of_ne hi with hlt | hgt
        · have hle := offset_above_le hs hitems hlt
          rw [abs_of_nonpos (by omega)]
          omega
        · have hle := le_offset_below hs hitems hgt h
          exact hle.trans (le_abs_self _)
      neg_above := fun i h hi hpos => by
        have hle := offset_above_le hs hitems hi
        rw [hoffset]
        omega
      pos_below := fun i h hi hpos => by
        have hle := le_offset_below hs hitems hi h
        rw [hoffset]
        omega
      isGreatest_up := by
        refine ⟨⟨0, by omega, ?_⟩, ?_⟩
        · rw [hoffset, hsize up]
          exact up_stacked_eq_first
        · rintro _ ⟨i, h, rfl⟩
          exact up_le_of_mem_tiers_stacked hs hitems (htier i h)
      isGreatest_down := by
        refine ⟨⟨above.length + below.length, by omega, ?_⟩, ?_⟩
        · rw [hoffset, hsize down]
          exact down_stacked_eq_last
        · rintro _ ⟨i, h, rfl⟩
          exact le_down_of_mem_tiers_stacked hs hitems (htier i h)
      height_eq := height_stacked }

/-- With any item as the main one a branch can be made of some items, and it is snug. -/
theorem snug_ofBranches (hs : 0 ≤ m.separation) (hr : 0 ≤ m.arcRadius) {items : List (Box α)}
    (hitems : ∀ item ∈ items, 0 ≤ item.up ∧ 0 ≤ item.down) {mainIndex : Nat}
    (hmain : mainIndex < items.length) :
    ∃ branch, ofBranches m mainIndex items = .ok branch ∧ branch.Snug m mainIndex items := by
  have hdrop : items.drop mainIndex = items[mainIndex] :: items.drop (mainIndex + 1) :=
    List.drop_eq_getElem_cons hmain
  have hsplit : items.take mainIndex ++ items[mainIndex] :: items.drop (mainIndex + 1) = items := by
    rw [← hdrop, List.take_append_drop]
  refine ⟨stacked m (items.take mainIndex) items[mainIndex] (items.drop (mainIndex + 1)), ?_, ?_⟩
  · rw [ofBranches, if_neg (by omega), Int.toNat_natCast, hdrop]
  · rw [← hsplit] at hitems
    have hsnug := snug_stacked hs hr hitems
    rwa [hsplit, List.length_take_of_le hmain.le] at hsnug

/-- A track past a label and a loop below the label. -/
theorem snug_ofBranches_sample :
    let label : Box Unit := .ofLabel .standard .terminal "item" 34
    let items : List (Box Unit) := [.ofItems .standard .bypass [], label, .repeated .standard label]
    0 ≤ Metrics.standard.separation ∧ 0 ≤ Metrics.standard.arcRadius ∧
      (∀ item ∈ items, 0 ≤ item.up ∧ 0 ≤ item.down) ∧ 1 < items.length ∧
      ∃ branch, ofBranches .standard 1 items = .ok branch ∧ branch.Snug .standard 1 items := by
  intro label items
  have hitems : ∀ item ∈ items, 0 ≤ item.up ∧ 0 ≤ item.down := by decide
  exact ⟨by decide, by decide, hitems, by decide,
    snug_ofBranches (by decide) (by decide) hitems (by decide)⟩

end Box

end SyntaxDiagram
