import Mathlib.Data.List.Chain
import SchemaDiagram.Proofs.Geometry.Real
import SchemaDiagram.Proofs.Routing.Polyline

/-! # Polylines along the axes

A polyline whose legs run along the axes, and are long enough to be seen, is simplified leg by leg: a leg that goes on
in the direction of the one before makes that one longer, and every other one stays. So the simplified polyline starts
in the direction it started in, and it is the same one from either end.
-/
namespace SchemaDiagram

/-! ## Headings -/

/-- A direction along an axis. -/
inductive Heading
  | left
  | right
  | up
  | down
  deriving DecidableEq, Repr

namespace Heading

noncomputable def dx : Heading → ℝ
  | left => -1
  | right => 1
  | up | down => 0

noncomputable def dy : Heading → ℝ
  | left | right => 0
  | up => -1
  | down => 1

def opposite : Heading → Heading
  | left => right
  | right => left
  | up => down
  | down => up

theorem dx_opposite (h : Heading) : h.opposite.dx = -h.dx := by cases h <;> simp [opposite, dx]

theorem dy_opposite (h : Heading) : h.opposite.dy = -h.dy := by cases h <;> simp [opposite, dy]

theorem opposite_inj {h k : Heading} : h.opposite = k.opposite ↔ h = k := by cases h <;> cases k <;> decide

theorem length_eq_one (h : Heading) : h.dx * h.dx + h.dy * h.dy = 1 := by cases h <;> simp [dx, dy]

/-- Different headings are at a right angle or against each other. -/
theorem dot_nonpos {h k : Heading} (hne : h ≠ k) : h.dx * k.dx + h.dy * k.dy ≤ 0 := by
  cases h <;> cases k <;> first | exact absurd rfl hne | simp [dx, dy]

/-- A heading has no part along one of the axes. -/
theorem dx_eq_zero_or (h : Heading) : h.dx = 0 ∨ h.dy = 0 := by cases h <;> simp [dx, dy]

end Heading

/-- The points have a coordinate in common. -/
def Point.Aligned (p q : Point ℝ) : Prop := p.x = q.x ∨ p.y = q.y

/-- The point at some distance in a direction. -/
noncomputable def Point.walk (p : Point ℝ) (h : Heading) (d : ℝ) : Point ℝ := ⟨p.x + d * h.dx, p.y + d * h.dy⟩

namespace Point

variable (p : Point ℝ) (h : Heading)

theorem walk_zero : p.walk h 0 = p := by simp [walk]

theorem walk_walk (d e : ℝ) : (p.walk h d).walk h e = p.walk h (d + e) := by
  simp only [walk, mk.injEq]
  constructor <;> ring

theorem walk_opposite (d : ℝ) : p.walk h.opposite d = p.walk h (-d) := by
  simp only [walk, Heading.dx_opposite, Heading.dy_opposite, mul_neg, neg_mul]

theorem walk_sub (d : ℝ) : p.walk h d - p = ⟨d * h.dx, d * h.dy⟩ := by
  simp only [sub_real, walk, add_sub_cancel_left]

theorem distance_walk {d : ℝ} (hd : 0 ≤ d) : p.distance (p.walk h d) = d := by
  have hsquare : d * h.dx * (d * h.dx) + d * h.dy * (d * h.dy) = d * d := by
    calc d * h.dx * (d * h.dx) + d * h.dy * (d * h.dy) = d * d * (h.dx * h.dx + h.dy * h.dy) := by ring
      _ = d * d := by rw [h.length_eq_one, mul_one]
  have hdistance : p.distance (p.walk h d) = (p.walk h d - p).length := rfl
  rw [hdistance, walk_sub, length_real, hsquare, Real.sqrt_mul_self hd]

/-- The direction of a way is its heading, unless the way is next to nothing. -/
theorem normalizeOr_walk_sub {d : ℝ} (hd : 1 / 10 ^ 9 ≤ d) : (p.walk h d - p).normalizeOr zero = ⟨h.dx, h.dy⟩ := by
  have hpos : 0 < d := lt_of_lt_of_le (by positivity) hd
  have hlength : (p.walk h d - p).length = d := p.distance_walk h hpos.le
  rw [normalizeOr_real, hlength, if_neg (not_lt.mpr hd), walk_sub]
  simp only [mk.injEq]
  constructor <;> exact mul_div_cancel_left₀ _ hpos.ne'

theorem walk_aligned (d e : ℝ) : (p.walk h d).Aligned (p.walk h e) := by
  simp only [Aligned, walk]
  rcases h.dx_eq_zero_or with h | h <;> simp [h]

end Point

/-! ## Legs -/

/-- From `p` one comes to `q` in the direction `h`, by a way that is no matter of tolerance. -/
def Leg (h : Heading) (p q : Point ℝ) : Prop := ∃ d, 1 / 10 ^ 5 ≤ d ∧ q = p.walk h d

variable {h k : Heading} {p q r : Point ℝ}

theorem Leg.symm (hpq : Leg h p q) : Leg h.opposite q p := by
  obtain ⟨d, hd, rfl⟩ := hpq
  exact ⟨d, hd, by rw [Point.walk_opposite, Point.walk_walk, add_neg_cancel, Point.walk_zero]⟩

theorem Leg.trans (hpq : Leg h p q) (hqr : Leg h q r) : Leg h p r := by
  obtain ⟨d, hd, rfl⟩ := hpq
  obtain ⟨e, he, rfl⟩ := hqr
  have hpos : (0 : ℝ) ≤ 1 / 10 ^ 5 := by positivity
  exact ⟨d + e, by linarith, Point.walk_walk ..⟩

theorem Leg.le_distance (hpq : Leg h p q) : 1 / 10 ^ 5 ≤ p.distance q := by
  obtain ⟨d, hd, rfl⟩ := hpq
  rwa [p.distance_walk h (le_trans (by positivity) hd)]

theorem Leg.not_near (hpq : Leg h p q) : ¬p.distance q < tolerance := by
  rw [tolerance_real, not_lt]
  exact le_trans (by norm_num) hpq.le_distance

/-- Points that are apart and have a coordinate in common are the ends of a leg. -/
theorem exists_leg (haligned : p.Aligned q) (hapart : 1 / 10 ^ 5 ≤ p.distance q) : ∃ h, Leg h p q := by
  have hlength (a : ℝ) : √(a * a) = |a| := Real.sqrt_mul_self_eq_abs a
  rw [Point.distance_real] at hapart
  rcases haligned with hx | hy
  · rw [hx, sub_self, mul_zero, zero_add, hlength] at hapart
    rcases abs_cases (q.y - p.y) with ⟨habs, -⟩ | ⟨habs, -⟩ <;> rw [habs] at hapart
    · exact ⟨.down, _, hapart, Point.ext (by simp [Point.walk, Heading.dx, hx]) (by simp [Point.walk, Heading.dy])⟩
    · exact ⟨.up, _, hapart, Point.ext (by simp [Point.walk, Heading.dx, hx]) (by simp [Point.walk, Heading.dy])⟩
  · rw [hy, sub_self, mul_zero, add_zero, hlength] at hapart
    rcases abs_cases (q.x - p.x) with ⟨habs, -⟩ | ⟨habs, -⟩ <;> rw [habs] at hapart
    · exact ⟨.right, _, hapart, Point.ext (by simp [Point.walk, Heading.dx]) (by simp [Point.walk, Heading.dy, hy])⟩
    · exact ⟨.left, _, hapart, Point.ext (by simp [Point.walk, Heading.dx]) (by simp [Point.walk, Heading.dy, hy])⟩

/-! ## Adding a point -/

theorem extendPolyline_real (a b : Point ℝ) (rest : List (Point ℝ)) (p : Point ℝ) :
    extendPolyline (b :: a :: rest) p =
      if b.distance p < tolerance then b :: a :: rest
      else if |(b.x - a.x) * (p.y - b.y) - (b.y - a.y) * (p.x - b.x)| < tolerance ∧
        0 < (b.x - a.x) * (p.x - b.x) + (b.y - a.y) * (p.y - b.y) then p :: a :: rest
      else p :: b :: a :: rest := by
  rw [← Coordinate.magnitude_real]
  conv_rhs => rw [← Coordinate.zero_real]
  rfl

theorem extendPolyline_self (p : Point ℝ) (rest : List (Point ℝ)) : extendPolyline (p :: rest) p = p :: rest := by
  have hnear : p.distance p < tolerance := by
    rw [Point.distance_self]
    exact tolerance_pos
  cases rest <;> exact if_pos hnear

theorem extendPolyline_leg (hpq : Leg h p q) : extendPolyline [p] q = [q, p] := if_neg hpq.not_near

/-- A leg in the direction of the one before makes that one longer, and every other one is put behind it. -/
theorem extendPolyline_legs (hpq : Leg h p q) (hqr : Leg k q r) (rest : List (Point ℝ)) :
    extendPolyline (q :: p :: rest) r = if h = k then r :: p :: rest else r :: q :: p :: rest := by
  rw [extendPolyline_real, if_neg hqr.not_near]
  obtain ⟨d, hd, rfl⟩ := hpq
  obtain ⟨e, he, rfl⟩ := hqr
  have hpos : 0 < d * e := mul_pos (lt_of_lt_of_le (by positivity) hd) (lt_of_lt_of_le (by positivity) he)
  generalize hq : p.walk h d = q
  have hx : q.x - p.x = d * h.dx := by rw [← hq]; exact add_sub_cancel_left ..
  have hy : q.y - p.y = d * h.dy := by rw [← hq]; exact add_sub_cancel_left ..
  have hx' : (q.walk k e).x - q.x = e * k.dx := add_sub_cancel_left ..
  have hy' : (q.walk k e).y - q.y = e * k.dy := add_sub_cancel_left ..
  have hdot : d * h.dx * (e * k.dx) + d * h.dy * (e * k.dy) = d * e * (h.dx * k.dx + h.dy * k.dy) := by ring
  rw [hx, hy, hx', hy', hdot]
  by_cases hk : h = k
  · subst hk
    have hcross : d * h.dx * (e * h.dy) - d * h.dy * (e * h.dx) = 0 := by ring
    rw [if_pos rfl, hcross, abs_zero, h.length_eq_one, mul_one, if_pos ⟨tolerance_pos, hpos⟩]
  · have hback : ¬0 < d * e * (h.dx * k.dx + h.dy * k.dy) :=
      not_lt.mpr (mul_nonpos_of_nonneg_of_nonpos hpos.le (Heading.dot_nonpos hk))
    rw [if_neg hk, if_neg fun hrun => hback hrun.2]

/-- The same law at the other end of the polyline. -/
theorem extendPolyline_legs_front (hpq : Leg h p q) (hqr : Leg k q r) (rest : List (Point ℝ)) :
    extendPolyline (q :: r :: rest) p = if h = k then p :: r :: rest else p :: q :: r :: rest := by
  rw [extendPolyline_legs hqr.symm hpq.symm]
  simp only [Heading.opposite_inj, eq_comm]

/-! ## From the front -/

section Front

variable {α : Type} [Coordinate α]

theorem extendPolyline_append (a b : Point α) (older : List (Point α)) (p : Point α) :
    extendPolyline (b :: a :: older) p = extendPolyline [b, a] p ++ older := by
  simp only [extendPolyline]
  split
  · rfl
  · split <;> rfl

/-- Only the last two points of a polyline matter for what becomes of it. -/
theorem foldl_extendPolyline_append (points : List (Point α)) (a b : Point α) (older : List (Point α)) :
    points.foldl extendPolyline (b :: a :: older) = points.foldl extendPolyline [b, a] ++ older := by
  induction points generalizing a b older with
  | nil => rfl
  | cons p rest ih =>
      rw [List.foldl_cons, List.foldl_cons, extendPolyline_append]
      rcases extendPolyline_cases b [a] p with ⟨-, heq⟩ | ⟨-, heq⟩ | ⟨_, _, -, -, -, heq⟩
      · rw [heq]
        exact ih a b older
      · rw [heq, ih b p [a], List.append_assoc]
        exact ih b p (a :: older)
      · rw [heq]
        exact ih a p older

end Front

theorem simplify_self (p : Point ℝ) (rest : List (Point ℝ)) : simplify (p :: p :: rest) = simplify (p :: rest) :=
  congrArg (fun newest => (rest.foldl extendPolyline newest).reverse) (extendPolyline_self p [])

theorem simplify_leg (hpq : Leg h p q) (rest : List (Point ℝ)) :
    simplify (p :: q :: rest) = (rest.foldl extendPolyline [q, p]).reverse :=
  congrArg (fun newest => (rest.foldl extendPolyline newest).reverse) (extendPolyline_leg hpq)

theorem simplify_leg_self (hpq : Leg h p q) (rest : List (Point ℝ)) :
    simplify (p :: q :: q :: rest) = simplify (p :: q :: rest) := by
  rw [simplify_leg hpq, simplify_leg hpq, List.foldl_cons, extendPolyline_self]

/-- Two legs in one direction are one leg. -/
theorem simplify_run (hpq : Leg h p q) (hqr : Leg h q r) (rest : List (Point ℝ)) :
    simplify (p :: q :: r :: rest) = simplify (p :: r :: rest) := by
  rw [simplify_leg hpq, simplify_leg (hpq.trans hqr), List.foldl_cons, extendPolyline_legs hpq hqr, if_pos rfl]

/-- A leg before a turn stays as it is. -/
theorem simplify_turn (hpq : Leg h p q) (hqr : Leg k q r) (hne : h ≠ k) (rest : List (Point ℝ)) :
    simplify (p :: q :: r :: rest) = p :: simplify (q :: r :: rest) := by
  rw [simplify_leg hpq, simplify_leg hqr, List.foldl_cons, extendPolyline_legs hpq hqr, if_neg hne,
    foldl_extendPolyline_append, List.reverse_append]
  rfl

/-! ## Polylines in steps -/

/-- The next point is the end of a leg. -/
def Leads (p q : Point ℝ) : Prop := ∃ h, Leg h p q

/-- The next point is the same one, or the end of a leg. -/
def Steps (p q : Point ℝ) : Prop := p = q ∨ Leads p q

theorem Leads.symm (hpq : Leads p q) : Leads q p := by
  obtain ⟨h, hpq⟩ := hpq
  exact ⟨h.opposite, hpq.symm⟩

theorem isChain_extendPolyline {older : List (Point ℝ)} (hlegs : (p :: older).IsChain Leads) (hpq : Steps p q) :
    ∃ older', extendPolyline (p :: older) q = q :: older' ∧ (q :: older').IsChain Leads := by
  rcases hpq with rfl | ⟨k, hpq⟩
  · exact ⟨older, extendPolyline_self p older, hlegs⟩
  · cases older with
    | nil => exact ⟨[p], extendPolyline_leg hpq, .cons_cons ⟨_, hpq.symm⟩ (.singleton p)⟩
    | cons a older =>
        obtain ⟨⟨h, hpa⟩, holder⟩ := List.isChain_cons_cons.mp hlegs
        rw [extendPolyline_legs hpa.symm hpq]
        split
        · next hrun =>
            subst hrun
            refine ⟨a :: older, rfl, ?_⟩
            cases holder with
            | singleton => exact .cons_cons ⟨_, (hpa.symm.trans hpq).symm⟩ (.singleton a)
            | cons_cons hab holder => exact .cons_cons ⟨_, (hpa.symm.trans hpq).symm⟩ (.cons_cons hab holder)
        · exact ⟨p :: a :: older, rfl, .cons_cons ⟨_, hpq.symm⟩ hlegs⟩

/-- A simplified polyline consists of legs. -/
theorem isChain_simplify {points : List (Point ℝ)} (hsteps : points.IsChain Steps) :
    (simplify points).IsChain Leads := by
  have hfold : ∀ {p older}, (p :: older).IsChain Leads → ∀ {rest}, (p :: rest).IsChain Steps →
      (rest.foldl extendPolyline (p :: older)).IsChain Leads := by
    intro p older hlegs rest hsteps
    induction rest generalizing p older with
    | nil => exact hlegs
    | cons q rest ih =>
        obtain ⟨hpq, hrest⟩ := List.isChain_cons_cons.mp hsteps
        obtain ⟨older', heq, hlegs'⟩ := isChain_extendPolyline hlegs hpq
        rw [List.foldl_cons, heq]
        exact ih hlegs' hrest
  cases points with
  | nil => exact .nil
  | cons p rest => exact List.isChain_reverse.mpr ((hfold (.singleton p) hsteps).imp fun _ _ => Leads.symm)

theorem exists_simplify_eq_cons (p : Point ℝ) (rest : List (Point ℝ)) : ∃ more, simplify (p :: rest) = p :: more :=
  List.head?_eq_some_iff.mp (head?_simplify p rest)

/-- A simplified polyline starts in the direction in which the polyline starts. -/
theorem exists_leg_simplify (hpq : Leg h p q) {rest : List (Point ℝ)} (hsteps : (q :: rest).IsChain Steps) :
    ∃ r more, simplify (p :: q :: rest) = p :: r :: more ∧ Leg h p r := by
  induction rest generalizing q with
  | nil => exact ⟨q, [], simplify_leg hpq [], hpq⟩
  | cons r rest ih =>
      obtain ⟨hqr, hrest⟩ := List.isChain_cons_cons.mp hsteps
      rcases hqr with rfl | ⟨k, hqr⟩
      · rw [simplify_leg_self hpq]
        exact ih hpq hrest
      · by_cases hk : h = k
        · subst hk
          rw [simplify_run hpq hqr]
          exact ih (hpq.trans hqr) hrest
        · obtain ⟨more, heq⟩ := exists_simplify_eq_cons q (r :: rest)
          rw [simplify_turn hpq hqr hk, heq]
          exact ⟨q, more, rfl, hpq⟩

/-! ## From either end -/

/-- A point in the middle of a run is no matter at the front. -/
theorem extendPolyline_run (hpq : Leg h p q) (hqr : Leg h q r) {rest : List (Point ℝ)}
    (hlegs : (r :: rest).IsChain Leads) :
    extendPolyline (extendPolyline (r :: rest) q) p = extendPolyline (r :: rest) p := by
  cases rest with
  | nil =>
      rw [extendPolyline_leg hqr.symm, extendPolyline_legs_front hpq hqr, if_pos rfl,
        extendPolyline_leg (hpq.trans hqr).symm]
  | cons c rest =>
      obtain ⟨⟨k, hrc⟩, -⟩ := List.isChain_cons_cons.mp hlegs
      rw [extendPolyline_legs_front hqr hrc, extendPolyline_legs_front (hpq.trans hqr) hrc]
      split
      · next hk =>
          subst hk
          rw [extendPolyline_legs_front hpq (hqr.trans hrc), if_pos rfl]
      · rw [extendPolyline_legs_front hpq hqr, if_pos rfl]

/-- A point in front of a polyline is added as one behind it is. -/
theorem simplify_cons (hpq : Steps p q) {rest : List (Point ℝ)} (hsteps : (q :: rest).IsChain Steps) :
    simplify (p :: q :: rest) = extendPolyline (simplify (q :: rest)) p := by
  rcases hpq with rfl | ⟨h, hpq⟩
  · obtain ⟨more, heq⟩ := exists_simplify_eq_cons p rest
    rw [simplify_self, heq, extendPolyline_self]
  · induction rest generalizing h p q with
    | nil => exact (simplify_leg hpq []).trans (extendPolyline_leg hpq.symm).symm
    | cons r rest ih =>
        obtain ⟨hqr, hrest⟩ := List.isChain_cons_cons.mp hsteps
        rcases hqr with rfl | ⟨k, hqr⟩
        · rw [simplify_leg_self hpq, simplify_self]
          exact ih hrest h hpq
        · by_cases hk : h = k
          · subst hk
            obtain ⟨more, heq⟩ := exists_simplify_eq_cons r rest
            have hlegs := isChain_simplify hrest
            rw [simplify_run hpq hqr, ih hrest h (hpq.trans hqr), ih hrest h hqr]
            rw [heq] at hlegs ⊢
            exact (extendPolyline_run hpq hqr hlegs).symm
          · obtain ⟨z, more, heq, hqz⟩ := exists_leg_simplify hqr hrest
            rw [simplify_turn hpq hqr hk, heq, extendPolyline_legs_front hpq hqz, if_neg hk]

/-- A polyline in steps is simplified to the same one from either end. -/
theorem simplify_reverse {points : List (Point ℝ)} (hsteps : points.IsChain Steps) :
    simplify points.reverse = (simplify points).reverse := by
  induction points with
  | nil => rfl
  | cons p rest ih =>
      cases rest with
      | nil => rfl
      | cons q rest =>
          obtain ⟨hpq, hrest⟩ := List.isChain_cons_cons.mp hsteps
          have hfold : (q :: rest).reverse.foldl extendPolyline [] = simplify (q :: rest) :=
            List.reverse_injective (ih hrest)
          rw [simplify_cons hpq hrest, ← hfold, simplify, List.reverse_cons, List.foldl_append]
          rfl

end SchemaDiagram
