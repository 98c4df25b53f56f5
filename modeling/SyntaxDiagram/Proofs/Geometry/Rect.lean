import SyntaxDiagram.Box.Place
import Mathlib.Topology.Order.DenselyOrdered
import Mathlib.Topology.Instances.Real.Lemmas
import Mathlib.Tactic.NormNum
import Mathlib.Order.CompletePartialOrder

/-!
# Rectangles

Axis-parallel rectangles with integer sides, those of boxes and those that the moves of a connector
span.  `Rect.region` is the set of points of the plane that a rectangle covers, sides included.  Two
relations on the sides say how regions meet: `Apart` makes them disjoint (`Apart.disjoint_region`),
`Skirts` keeps one out of the interior of the other (`Skirts.disjoint_interior`).
-/

namespace SyntaxDiagram

/-- A rectangle with its sides parallel to the axes; `y` grows downwards. -/
@[ext]
structure Rect where
  left : Int
  right : Int
  top : Int
  bottom : Int
  deriving DecidableEq, Repr

namespace Rect

/-! ### Points and parts -/

instance : Membership Point Rect where
  mem r p := r.left ≤ p.1 ∧ p.1 ≤ r.right ∧ r.top ≤ p.2 ∧ p.2 ≤ r.bottom

theorem mem_iff {r : Rect} {p : Point} :
    p ∈ r ↔ r.left ≤ p.1 ∧ p.1 ≤ r.right ∧ r.top ≤ p.2 ∧ p.2 ≤ r.bottom := Iff.rfl

/-- `r ⊆ s`: no side of `r` is outside of `s`. -/
instance : HasSubset Rect where
  Subset r s := s.left ≤ r.left ∧ r.right ≤ s.right ∧ s.top ≤ r.top ∧ r.bottom ≤ s.bottom

theorem subset_iff {r s : Rect} :
    r ⊆ s ↔ s.left ≤ r.left ∧ r.right ≤ s.right ∧ s.top ≤ r.top ∧ r.bottom ≤ s.bottom := Iff.rfl

theorem Subset.refl (r : Rect) : r ⊆ r := by
  simp only [subset_iff, le_refl, and_self]

theorem Subset.trans {r s t : Rect} (h : r ⊆ s) (h' : s ⊆ t) : r ⊆ t := by
  simp only [subset_iff] at *
  omega

theorem mem_of_subset {r s : Rect} {p : Point} (h : r ⊆ s) (hp : p ∈ r) : p ∈ s := by
  simp only [subset_iff, mem_iff] at *
  omega

/-- The smallest rectangle around two points. -/
def spanning (p q : Point) : Rect :=
  ⟨min p.1 q.1, max p.1 q.1, min p.2 q.2, max p.2 q.2⟩

/-- A rectangle that has two points has all of the rectangle they span. -/
theorem spanning_subset {p q : Point} {r : Rect} (hp : p ∈ r) (hq : q ∈ r) : spanning p q ⊆ r := by
  simp only [spanning, subset_iff, mem_iff] at *
  omega

/-! ### How two rectangles meet -/

/-- A strip between the rectangles, of positive breadth, meets neither. -/
def Apart (r s : Rect) : Prop :=
  r.right < s.left ∨ s.right < r.left ∨ r.bottom < s.top ∨ s.bottom < r.top

/-- A line between the rectangles, which they may touch, has them on different sides. -/
def Skirts (r s : Rect) : Prop :=
  r.right ≤ s.left ∨ s.right ≤ r.left ∨ r.bottom ≤ s.top ∨ s.bottom ≤ r.top

theorem Apart.symm {r s : Rect} (h : Apart r s) : Apart s r := by
  simp only [Apart] at *
  omega

/-- What shares no point with a rectangle shares none with its interior. -/
theorem Apart.skirts {r s : Rect} (h : Apart r s) : Skirts r s := by
  simp only [Apart, Skirts] at *
  omega

/-- Smaller rectangles are still apart. -/
theorem Apart.mono {r r' s s' : Rect} (hr : r' ⊆ r) (hs : s' ⊆ s) (h : Apart r s) :
    Apart r' s' := by
  simp only [Apart, subset_iff] at *
  omega

/-- A smaller rectangle still skirts a smaller one. -/
theorem Skirts.mono {r r' s s' : Rect} (hr : r' ⊆ r) (hs : s' ⊆ s) (h : Skirts r s) :
    Skirts r' s' := by
  simp only [Skirts, subset_iff] at *
  omega

/-- Points of rectangles that are apart differ. -/
theorem Apart.ne {r s : Rect} (h : Apart r s) {p q : Point} (hp : p ∈ r) (hq : q ∈ s) : p ≠ q := by
  rintro rfl
  simp only [Apart, mem_iff] at *
  omega

/-! ### Points of the plane -/

/-- The points of the plane that a rectangle covers, its sides included. -/
def region (r : Rect) : Set (ℝ × ℝ) :=
  Set.Icc (r.left : ℝ) r.right ×ˢ Set.Icc (r.top : ℝ) r.bottom

/-- The interior of a rectangle in the plane of the reals is the product of two open intervals. -/
theorem interior_region (r : Rect) :
    interior r.region = Set.Ioo (r.left : ℝ) r.right ×ˢ Set.Ioo (r.top : ℝ) r.bottom := by
  rw [region, interior_prod_eq, interior_Icc, interior_Icc]

/-- Rectangles that are apart by their bounds have no real point in common. -/
theorem Apart.disjoint_region {r s : Rect} (h : Apart r s) : Disjoint r.region s.region := by
  rw [Set.disjoint_left]
  rintro ⟨x, y⟩ ⟨⟨hx₁, hx₂⟩, hy₁, hy₂⟩ ⟨⟨hx₃, hx₄⟩, hy₃, hy₄⟩
  rcases h with h | h | h | h
  · exact absurd (Int.cast_lt.mpr h) (not_lt.mpr (hx₃.trans hx₂))
  · exact absurd (Int.cast_lt.mpr h) (not_lt.mpr (hx₁.trans hx₄))
  · exact absurd (Int.cast_lt.mpr h) (not_lt.mpr (hy₃.trans hy₂))
  · exact absurd (Int.cast_lt.mpr h) (not_lt.mpr (hy₁.trans hy₄))

/-- A rectangle that skirts another by its bounds has no real point of its interior. -/
theorem Skirts.disjoint_interior {r s : Rect} (h : Skirts r s) :
    Disjoint r.region (interior s.region) := by
  rw [interior_region, Set.disjoint_left]
  rintro ⟨x, y⟩ ⟨⟨hx₁, hx₂⟩, hy₁, hy₂⟩ ⟨⟨hx₃, hx₄⟩, hy₃, hy₄⟩
  rcases h with h | h | h | h
  · exact absurd (Int.cast_le.mpr h) (not_le.mpr (hx₃.trans_le hx₂))
  · exact absurd (Int.cast_le.mpr h) (not_le.mpr (hx₁.trans_lt hx₄))
  · exact absurd (Int.cast_le.mpr h) (not_le.mpr (hy₃.trans_le hy₂))
  · exact absurd (Int.cast_le.mpr h) (not_le.mpr (hy₁.trans_lt hy₄))

end Rect

end SyntaxDiagram
