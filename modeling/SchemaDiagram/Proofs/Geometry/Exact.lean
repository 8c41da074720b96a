import Mathlib.Data.Rat.Cast.Order
import Mathlib.Data.Rat.Sqrt
import Mathlib.Tactic.Positivity
import SchemaDiagram.Geometry.Shape

/-! # Exact coordinates

Rational numbers as coordinates: sums, products and comparisons are those of arithmetic, so that no place
is off by a rounding. The square root of a number that is no square is the next best fraction; nothing that
is placed on a grid depends on one.
-/
namespace SchemaDiagram
namespace Coordinate

instance : Coordinate ℚ where
  ofNat n := n
  add a b := a + b
  sub a b := a - b
  mul a b := a * b
  div a b := a / b
  neg a := -a
  sqrt := Rat.sqrt
  lt a b := a < b
  le a b := a ≤ b
  decidableLt _ _ := inferInstance
  decidableLe _ _ := inferInstance
  isFinite _ := true

theorem larger_eq_max (a b : ℚ) : larger a b = max a b := by
  have hlarger : larger a b = if b < a then a else if b ≤ b then b else a := rfl
  rw [hlarger, if_pos (le_refl b)]
  split
  · next h => exact (max_eq_left h.le).symm
  · next h => exact (max_eq_right (not_lt.mp h)).symm

theorem le_larger (a b : ℚ) : b ≤ larger a b := by
  rw [larger_eq_max]
  exact le_max_right a b

theorem largest_eq_foldl (as : List ℚ) : largest as = as.foldl max 0 := by
  have hlarger : (larger : ℚ → ℚ → ℚ) = max := funext₂ larger_eq_max
  exact congrArg (fun f => as.foldl f 0) hlarger

theorem le_foldl_max (as : List ℚ) (a : ℚ) : a ≤ as.foldl max a ∧ ∀ b ∈ as, b ≤ as.foldl max a := by
  induction as generalizing a with
  | nil => exact ⟨le_refl a, nofun⟩
  | cons b rest ih =>
      obtain ⟨hstart, hrest⟩ := ih (max a b)
      refine ⟨(le_max_left a b).trans hstart, fun c hc => ?_⟩
      rcases List.mem_cons.mp hc with rfl | hc
      · exact (le_max_right a c).trans hstart
      · exact hrest c hc

theorem largest_nonneg (as : List ℚ) : 0 ≤ largest as := by
  rw [largest_eq_foldl]
  exact (le_foldl_max as 0).1

theorem le_largest {as : List ℚ} {a : ℚ} (h : a ∈ as) : a ≤ largest as := by
  rw [largest_eq_foldl]
  exact (le_foldl_max as 0).2 a h

theorem smaller_eq_min (a b : ℚ) : smaller a b = min a b := by
  have hsmaller : smaller a b = if a < b then a else if b ≤ b then b else a := rfl
  rw [hsmaller, if_pos (le_refl b)]
  split
  · next h => exact (min_eq_left h.le).symm
  · next h => exact (min_eq_right (not_lt.mp h)).symm

/-- A value can be kept between two bounds in their order. -/
theorem exists_clamp {low high : ℚ} (h : low ≤ high) (a : ℚ) : ∃ b, clamp a low high = .ok b :=
  ⟨_, if_pos h⟩

theorem le_of_clamp {a low high b : ℚ} (h : clamp a low high = .ok b) : low ≤ b := by
  rw [clamp] at h
  split at h
  · next hle =>
      obtain rfl := Except.ok.inj h
      split
      · exact le_refl low
      · next hlow =>
          split
          · exact hle
          · exact not_lt.mp hlow
  · cases h

theorem tenth_pos (n : ℕ) : (0 : ℚ) < tenth n := by
  have htenth : (tenth n : ℚ) = ((1 : ℕ) : ℚ) / ((10 ^ n : ℕ) : ℚ) := rfl
  rw [htenth]
  positivity

end Coordinate

namespace Point

/-- The point is neither left of `corner` nor above it. -/
structure Beyond (corner p : Point ℚ) : Prop where
  left_le : corner.x ≤ p.x
  top_le : corner.y ≤ p.y

theorem Beyond.trans {corner p q : Point ℚ} (h : corner.Beyond p) (h' : p.Beyond q) : corner.Beyond q :=
  ⟨h.left_le.trans h'.left_le, h.top_le.trans h'.top_le⟩

theorem Beyond.scale {corner p : Point ℚ} (h : corner.Beyond p) {factor : ℚ} (hfactor : 0 ≤ factor) :
    (corner.scale factor).Beyond (p.scale factor) :=
  ⟨mul_le_mul_of_nonneg_right h.left_le hfactor, mul_le_mul_of_nonneg_right h.top_le hfactor⟩

end Point

namespace Rect

variable {α : Type} [Coordinate α]

theorem Overlaps.symm {r s : Rect α} (h : r.Overlaps s) : s.Overlaps r := ⟨h.2.1, h.1, h.2.2.2, h.2.2.1⟩

/-- Rectangles side by side, or one above the other, do not overlap. -/
theorem not_overlaps {r s : Rect ℚ} (h : r.right ≤ s.origin.x ∨ r.bottom ≤ s.origin.y) : ¬r.Overlaps s := by
  rintro ⟨-, hx, -, hy⟩
  rcases h with h | h
  · exact not_lt.mpr h hx
  · exact not_lt.mpr h hy

end Rect
end SchemaDiagram
