import SchemaDiagram.Proofs.Routing.Turn
import SchemaDiagram.Proofs.Routing.Polyline

/-! # Along a polyline with rounded corners

A path with rounded corners comes by the corners of its polyline one after the other. A curve leaves the segment in
front of its corner in the second half and comes to the segment behind it in the first half, so that the curves at
neighbouring corners keep apart and the pen never goes back.
-/
namespace SchemaDiagram

variable {radius : ℝ}

/-! ## Points on a segment -/

namespace Point

/-- The point that is part `t` of the way from one point to another. -/
noncomputable def toward (a b : Point ℝ) (t : ℝ) : Point ℝ := a + (b - a).scale t

theorem toward_real (a b : Point ℝ) (t : ℝ) : a.toward b t = ⟨a.x + (b.x - a.x) * t, a.y + (b.y - a.y) * t⟩ := rfl

theorem toward_comm (a b : Point ℝ) (t : ℝ) : a.toward b t = b.toward a (1 - t) := by
  rw [toward_real, toward_real, mk.injEq]
  constructor <;> ring

theorem distance_toward (a b : Point ℝ) {t : ℝ} (ht : 0 ≤ t) : a.distance (a.toward b t) = a.distance b * t := by
  have hsq : (a.x + (b.x - a.x) * t - a.x) * (a.x + (b.x - a.x) * t - a.x) +
      (a.y + (b.y - a.y) * t - a.y) * (a.y + (b.y - a.y) * t - a.y) =
        ((b.x - a.x) * (b.x - a.x) + (b.y - a.y) * (b.y - a.y)) * t ^ 2 := by
    ring
  rw [distance_real, distance_real, toward_real, hsq, Real.sqrt_mul' _ (sq_nonneg t), Real.sqrt_sq ht]

/-- A step of a length is a part of the way. -/
theorem add_scale_normalizeOr {a b : Point ℝ} (h : 1 / 10 ^ 9 ≤ a.distance b) (fallback : Point ℝ) (d : ℝ) :
    a + ((b - a).normalizeOr fallback).scale d = a.toward b (d / a.distance b) := by
  have hlength : (b - a).length = a.distance b := rfl
  rw [normalizeOr_real, hlength, if_neg (not_lt.mpr h), toward_real, add_real, scale_real, mk.injEq]
  constructor <;> simp only [sub_real] <;> ring

theorem sub_scale_normalizeOr {a b : Point ℝ} (h : 1 / 10 ^ 9 ≤ a.distance b) (d : ℝ) :
    b - ((b - a).normalizeOr zero).scale d = a.toward b (1 - d / a.distance b) := by
  rw [normalizeOr_sub_comm, sub_scale_back, toward_comm, sub_sub_cancel, a.distance_comm]
  rw [a.distance_comm] at h
  exact add_scale_normalizeOr h zero d

end Point

/-! ## Corners -/

/-- Commands that go on along a polyline, of whose first segment part `t` is behind the pen. They keep a corner, or
cut it by a curve from the second half of the segment in front of it to the first half of the segment behind it. -/
inductive RoundsOff (radius : ℝ) : ℝ → List (Point ℝ) → List (PathCommand ℝ) → Prop
  | point {p} : RoundsOff radius 0 [p] [.lineTo p]
  | last {t a b} (ht : t ≤ 1) : RoundsOff radius t [a, b] [.lineTo b]
  | sharp {t a b c more rest} (ht : t ≤ 1) (h : RoundsOff radius 0 (b :: c :: more) rest) :
      RoundsOff radius t (a :: b :: c :: more) (.lineTo b :: rest)
  | cut {t u v a b c more rest} (ht : t ≤ u) (hu : 1 / 2 ≤ u ∧ u ≤ 1) (hv : 0 ≤ v ∧ v ≤ 1 / 2)
      (hbefore : (a.toward b u).distance b ≤ max radius 0) (hafter : b.distance (b.toward c v) ≤ max radius 0)
      (h : RoundsOff radius v (b :: c :: more) rest) :
      RoundsOff radius t (a :: b :: c :: more) (.lineTo (a.toward b u) :: .quadTo b (b.toward c v) :: rest)

/-- What is cut off at a corner, as a part of the segment there. -/
theorem part_of_le_half {d r : ℝ} (hr : tolerance ≤ r) (hhalf : r ≤ d / 2) :
    1 / 10 ^ 9 ≤ d ∧ (0 ≤ r / d ∧ r / d ≤ 1 / 2) ∧ d * (r / d) = r := by
  have hpos : 0 < r := tolerance_pos.trans_le hr
  have hd : 0 < d := by linarith
  rw [tolerance_real] at hr
  refine ⟨?_, ⟨by positivity, ?_⟩, mul_div_cancel₀ r hd.ne'⟩
  · have hsmall : (1 : ℝ) / 10 ^ 9 ≤ 1 / 10 ^ 6 := by norm_num
    linarith
  · rw [div_le_iff₀ hd]
    linarith

/-- A corner is left as it is, or cut from the second half of the one segment to the first half of the other. -/
theorem turn_toward_cases (radius : ℝ) (a b c : Point ℝ) : turn radius a b c = [.lineTo b] ∨
    ∃ u v : ℝ, turn radius a b c = [.lineTo (a.toward b u), .quadTo b (b.toward c v)] ∧
      (1 / 2 ≤ u ∧ u ≤ 1) ∧ (0 ≤ v ∧ v ≤ 1 / 2) ∧
      (a.toward b u).distance b ≤ max radius 0 ∧ b.distance (b.toward c v) ≤ max radius 0 := by
  have hbefore := cornerRadius_le_before radius a b c
  have hafter := cornerRadius_le_after radius a b c
  have hradius : cornerRadius radius a b c ≤ max radius 0 := by
    rw [cornerRadius_real]
    exact (min_le_left _ _).trans (min_le_left _ _)
  simp only [turn]
  generalize cornerRadius radius a b c = r at hbefore hafter hradius
  split
  · exact .inl rfl
  · next hlong =>
      obtain ⟨hab, ⟨hu, hu'⟩, hcutBefore⟩ := part_of_le_half (not_lt.mp hlong) hbefore
      obtain ⟨hbc, hv, hcutAfter⟩ := part_of_le_half (not_lt.mp hlong) hafter
      refine .inr ⟨1 - r / a.distance b, r / b.distance c, ?_, ⟨by linarith, by linarith⟩, hv, ?_, ?_⟩
      · rw [Point.sub_scale_normalizeOr hab, Point.add_scale_normalizeOr hbc]
      · rw [Point.toward_comm, sub_sub_cancel, Point.distance_comm, Point.distance_toward _ _ hu, b.distance_comm,
          hcutBefore]
        exact hradius
      · rw [Point.distance_toward _ _ hv.1, hcutAfter]
        exact hradius

theorem roundsOff_turns (radius : ℝ) {t : ℝ} (ht : t ≤ 1 / 2) (p : Point ℝ) (more : List (Point ℝ)) (last : Point ℝ) :
    RoundsOff radius t (p :: more ++ [last]) (turns radius (p :: more ++ [last]) ++ [.lineTo last]) := by
  induction more generalizing p t with
  | nil => exact .last (by linarith)
  | cons corner more ih =>
      obtain ⟨q, rest, hmore, hturns⟩ := exists_turns_cons radius p corner more last
      have hpoints : p :: corner :: more ++ [last] = p :: corner :: q :: rest := by
        rw [List.cons_append, List.cons_append, hmore]
      have hbehind : corner :: more ++ [last] = corner :: q :: rest := by rw [List.cons_append, hmore]
      rw [hturns, hpoints]
      rcases turn_toward_cases radius p corner q with hturn | ⟨u, v, hturn, hu, hv, hbefore, hafter⟩
      · have hrest := ih (t := 0) (by norm_num) corner
        rw [hbehind] at hrest ⊢
        rw [hturn]
        exact .sharp (by linarith) hrest
      · have hrest := ih hv.2 corner
        rw [hbehind] at hrest ⊢
        rw [hturn]
        exact .cut (ht.trans hu.1) hu hv hbefore hafter hrest

/-! ## Places on a polyline -/

/-- The point stands at a place of the polyline. The points of the polyline are one apart. -/
inductive OnPolyline : List (Point ℝ) → ℝ → Point ℝ → Prop
  | point {p more} : OnPolyline (p :: more) 0 p
  | segment {t a b more} (ht : 0 ≤ t) (ht' : t ≤ 1) : OnPolyline (a :: b :: more) t (a.toward b t)
  | behind {s a more p} (h : OnPolyline more s p) : OnPolyline (a :: more) (s + 1) p

/-- The commands end at places of the polyline, and none of them ends behind the place that the pen has come to. -/
inductive Advances (points : List (Point ℝ)) : ℝ → List (PathCommand ℝ) → Prop
  | nil {t} : Advances points t []
  | cons {t s c rest} (hle : t ≤ s) (hplace : OnPolyline points s c.stop) (h : Advances points s rest) :
      Advances points t (c :: rest)

theorem Advances.behind {points : List (Point ℝ)} {t : ℝ} {commands : List (PathCommand ℝ)}
    (h : Advances points t commands) (a : Point ℝ) : Advances (a :: points) (t + 1) commands := by
  induction h with
  | nil => exact .nil
  | cons hle hplace _ ih => exact .cons (add_le_add_left hle 1) hplace.behind ih

theorem RoundsOff.advances {t : ℝ} {points : List (Point ℝ)} {commands : List (PathCommand ℝ)}
    (h : RoundsOff radius t points commands) (ht : 0 ≤ t) : Advances points t commands := by
  induction h with
  | point => exact .cons le_rfl .point .nil
  | last ht' => exact .cons (by linarith) (.behind .point) (.nil (t := 0 + 1))
  | @sharp t a b c more rest ht' _ ih => exact .cons (by linarith) (.behind .point) ((ih le_rfl).behind a)
  | @cut t u v a b c more rest htu hu hv _ _ _ ih =>
      have hstart : OnPolyline (a :: b :: c :: more) u (a.toward b u) := .segment (ht.trans htu) hu.2
      have hstop : OnPolyline (a :: b :: c :: more) (v + 1) (b.toward c v) := .behind (.segment hv.1 (by linarith))
      -- one segment ends between the ends of the curve
      exact .cons htu hstart (.cons (by linarith) hstop ((ih hv.1).behind a))

/-! ## Paths -/

/-- A path with rounded corners starts at the first of some points and ends next to the last one. It comes by the
corners of the simplified polyline one after the other, and never goes back on it. -/
theorem rounded_advances (first : Point ℝ) (more : List (Point ℝ)) (radius : ℝ) :
    ∃ rest last, rounded (first :: more) radius = .moveTo first :: rest ∧
      RoundsOff radius 0 (simplify (first :: more)) rest ∧ Advances (simplify (first :: more)) 0 rest ∧
      rest.getLast? = some last ∧
      last.stop.distance ((first :: more).getLast (List.cons_ne_nil first more)) < 1 / 10 ^ 6 := by
  have hhead := head?_simplify first more
  obtain ⟨q, hlast, hnear⟩ :=
    exists_getLast?_simplify (first :: more).dropLast ((first :: more).getLast (List.cons_ne_nil first more))
  rw [List.dropLast_append_getLast] at hlast
  have hdistance : q.distance ((first :: more).getLast (List.cons_ne_nil first more)) < 1 / 10 ^ 6 := by
    rcases hnear with rfl | hnear
    · rw [Point.distance_self]
      positivity
    · rwa [tolerance_real] at hnear
  rcases hpoints : simplify (first :: more) with _ | ⟨p, rest⟩
  · rw [hpoints] at hhead
    cases hhead
  · rw [hpoints] at hhead hlast
    obtain rfl : p = first := Option.some.inj hhead
    rcases List.eq_nil_or_concat' rest with rfl | ⟨between, last, rfl⟩
    · obtain rfl : p = q := Option.some.inj hlast
      have hrounds : RoundsOff radius 0 [p] [.lineTo p] := .point
      refine ⟨[.lineTo p], .lineTo p, ?_, hrounds, hrounds.advances le_rfl, rfl, hdistance⟩
      rw [rounded, hpoints]
    · rw [← List.cons_append, List.getLast?_concat] at hlast
      obtain rfl : last = q := Option.some.inj hlast
      have hrounds := roundsOff_turns radius (t := 0) (by norm_num) p between last
      exact ⟨_, .lineTo last, rounded_eq hpoints radius, hrounds, hrounds.advances le_rfl, List.getLast?_concat,
        hdistance⟩

end SchemaDiagram
