import Mathlib.Analysis.Real.Sqrt
import Mathlib.Tactic.Positivity
import Mathlib.Tactic.Ring
import SchemaDiagram.Layout.Metrics
import SchemaDiagram.Proofs.Failure
import SchemaDiagram.Routing.Path

/-! # Real coordinates

Real numbers as coordinates: sums, products, comparisons and square roots are those of arithmetic, so that
lengths are exact as well as places.
-/
namespace SchemaDiagram
namespace Coordinate

noncomputable instance : Coordinate ℝ where
  ofNat n := n
  add a b := a + b
  sub a b := a - b
  mul a b := a * b
  div a b := a / b
  neg a := -a
  sqrt := Real.sqrt
  lt a b := a < b
  le a b := a ≤ b
  decidableLt _ _ := inferInstance
  decidableLe _ _ := inferInstance
  isFinite _ := true

theorem zero_real : @OfNat.ofNat ℝ 0 (instOfNat 0) = 0 := Nat.cast_zero

theorem one_real : @OfNat.ofNat ℝ 1 (instOfNat 1) = 1 := Nat.cast_one

theorem two_real : @OfNat.ofNat ℝ 2 (instOfNat 2) = 2 := Nat.cast_ofNat

theorem larger_real (a b : ℝ) : larger a b = max a b := by
  have hlarger : larger a b = if b < a then a else if b ≤ b then b else a := rfl
  rw [hlarger, if_pos (le_refl b)]
  split
  · next h => exact (max_eq_left h.le).symm
  · next h => exact (max_eq_right (not_lt.mp h)).symm

theorem smaller_real (a b : ℝ) : smaller a b = min a b := by
  have hsmaller : smaller a b = if a < b then a else if b ≤ b then b else a := rfl
  rw [hsmaller, if_pos (le_refl b)]
  split
  · next h => exact (min_eq_left h.le).symm
  · next h => exact (min_eq_right (not_lt.mp h)).symm

theorem magnitude_real (a : ℝ) : magnitude a = |a| := by
  have hmagnitude : magnitude a = if a < @OfNat.ofNat ℝ 0 (instOfNat 0) then -a else a := rfl
  rw [hmagnitude, zero_real]
  split
  · next h => exact (abs_of_neg h).symm
  · next h => exact (abs_of_nonneg (not_lt.mp h)).symm

theorem tenth_real (n : ℕ) : (tenth n : ℝ) = 1 / 10 ^ n := by
  have htenth : (tenth n : ℝ) = ((1 : ℕ) : ℝ) / ((Nat.pow 10 n : ℕ) : ℝ) := rfl
  rw [htenth, Nat.cast_one, Nat.pow_eq, Nat.cast_pow, Nat.cast_ofNat]

theorem le_larger_real (a b : ℝ) : b ≤ larger a b := by
  rw [larger_real]
  exact le_max_right a b

/-- What is kept between two bounds is between them. -/
theorem bounds_of_clamp {a low high b : ℝ} (h : clamp a low high = .ok b) : low ≤ b ∧ b ≤ high := by
  have hclamp : clamp a low high =
      if low ≤ high then .ok (if a < low then low else if high < a then high else a) else .error .emptyRange := rfl
  rw [hclamp] at h
  split at h
  · next hle =>
      cases h
      split
      · exact ⟨le_refl low, hle⟩
      · next hlow =>
          split
          · exact ⟨hle, le_refl high⟩
          · next hhigh => exact ⟨not_lt.mp hlow, not_lt.mp hhigh⟩
  · cases h

theorem exists_clamp_real {low high : ℝ} (h : low ≤ high) (a : ℝ) : ∃ b, clamp a low high = .ok b :=
  ⟨_, if_pos h⟩

end Coordinate

namespace Point

theorem zero_real : (zero : Point ℝ) = ⟨0, 0⟩ := by
  have hzero : (zero : Point ℝ) =
      ⟨@OfNat.ofNat ℝ 0 (Coordinate.instOfNat 0), @OfNat.ofNat ℝ 0 (Coordinate.instOfNat 0)⟩ := rfl
  rw [hzero, Coordinate.zero_real]

theorem add_real (p q : Point ℝ) : p + q = ⟨p.x + q.x, p.y + q.y⟩ := rfl

theorem sub_real (p q : Point ℝ) : p - q = ⟨p.x - q.x, p.y - q.y⟩ := rfl

theorem scale_real (p : Point ℝ) (factor : ℝ) : p.scale factor = ⟨p.x * factor, p.y * factor⟩ := rfl

theorem length_real (p : Point ℝ) : p.length = √(p.x * p.x + p.y * p.y) := rfl

theorem distance_real (p q : Point ℝ) :
    p.distance q = √((q.x - p.x) * (q.x - p.x) + (q.y - p.y) * (q.y - p.y)) := rfl

theorem normalizeOr_real (p fallback : Point ℝ) :
    p.normalizeOr fallback = if p.length < 1 / 10 ^ 9 then fallback else ⟨p.x / p.length, p.y / p.length⟩ := by
  rw [← Coordinate.tenth_real]
  rfl

theorem distance_self (p : Point ℝ) : p.distance p = 0 := by
  rw [distance_real, sub_self, sub_self, mul_zero, add_zero, Real.sqrt_zero]

theorem distance_comm (p q : Point ℝ) : p.distance q = q.distance p := by
  rw [distance_real, distance_real]
  congr 1
  ring

theorem distance_nonneg (p q : Point ℝ) : 0 ≤ p.distance q := Real.sqrt_nonneg _

theorem abs_sub_x_le_distance (p q : Point ℝ) : |q.x - p.x| ≤ p.distance q := by
  refine Real.abs_le_sqrt ?_
  rw [sq]
  exact le_add_of_nonneg_right (mul_self_nonneg _)

theorem abs_sub_y_le_distance (p q : Point ℝ) : |q.y - p.y| ≤ p.distance q := by
  refine Real.abs_le_sqrt ?_
  rw [sq]
  exact le_add_of_nonneg_left (mul_self_nonneg _)

/-- From the other end the vector of length one points the other way. -/
theorem normalizeOr_sub_comm (p q : Point ℝ) :
    (q - p).normalizeOr zero = ((p - q).normalizeOr zero).scale (-1) := by
  have hlength : (q - p).length = (p - q).length := distance_comm p q
  rw [normalizeOr_real, normalizeOr_real, hlength]
  split
  · simp [zero_real, scale_real]
  · simp only [sub_real, scale_real, mk.injEq]
    constructor <;> ring

theorem scale_one (p : Point ℝ) : p.scale 1 = p := by rw [scale_real, mul_one, mul_one]

theorem scale_scale {s : ℝ} (hs : s ≠ 0) (p : Point ℝ) : (p.scale s).scale s⁻¹ = p := by
  have hcancel : ∀ a : ℝ, a * s * s⁻¹ = a := fun a => mul_inv_cancel_right₀ hs a
  exact Point.ext (hcancel p.x) (hcancel p.y)

end Point

theorem tolerance_real : (tolerance : ℝ) = 1 / 10 ^ 6 := Coordinate.tenth_real 6

theorem tolerance_pos : (0 : ℝ) < tolerance := by
  rw [tolerance_real]
  positivity

end SchemaDiagram
