import SchemaDiagram.Proofs.Routing.Leg
import SchemaDiagram.Proofs.Routing.Turn

/-! # The points a path runs along

The points of a lane and of a route along the axes are those from the other end in the other order. They go straight
out of the side of the one anchor and straight into the side of the other, and along the axes in between.
-/
namespace SchemaDiagram

/-! ## From the other end -/

/-- The anchors seen from the other end. -/
def Anchors.swap {α : Type} (a : Anchors α) : Anchors α := ⟨a.target, a.source, a.targetSide, a.sourceSide, a.looped⟩

namespace Side

theorem outward_left : (left.outward : ℝ) = -1 := congrArg Neg.neg Coordinate.one_real

theorem outward_right : (right.outward : ℝ) = 1 := Coordinate.one_real

/-- The two sides of a table are away from each other. -/
theorem outward_of_ne {side side' : Side} (h : side ≠ side') : (side'.outward : ℝ) = -side.outward := by
  cases side <;> cases side' <;> first | exact absurd rfl h | simp [outward_left, outward_right]

/-- The direction away from the table. -/
def heading : Side → Heading
  | left => .left
  | right => .right

theorem dx_heading (side : Side) : side.heading.dx = side.outward := by
  cases side
  · rw [outward_left]; rfl
  · rw [outward_right]; rfl

theorem dy_heading (side : Side) : side.heading.dy = 0 := by cases side <;> rfl

theorem outward_mul_self (side : Side) : (side.outward : ℝ) * side.outward = 1 := by
  cases side <;> simp [outward_left, outward_right]

end Side

theorem RoutingOptions.stub_standard : (standard.stub : ℝ) = 20 := Nat.cast_ofNat

theorem RoutingOptions.laneOffset_standard : (standard.laneOffset : ℝ) = 30 := Nat.cast_ofNat

variable (a : Anchors ℝ) (o : RoutingOptions ℝ)

/-- Where the lane beside both anchors is. -/
noncomputable def laneX : ℝ :=
  match a.sourceSide with
  | .left => min a.source.x a.target.x - o.laneOffset
  | .right => max a.source.x a.target.x + o.laneOffset

theorem lanePoints_real :
    lanePoints a o = [a.source, ⟨laneX a o, a.source.y⟩, ⟨laneX a o, a.target.y⟩, a.target] := by
  have hlane : laneX a o = match a.sourceSide with
      | .left => Coordinate.smaller a.source.x a.target.x - o.laneOffset
      | .right => Coordinate.larger a.source.x a.target.x + o.laneOffset := by
    rw [laneX, Coordinate.smaller_real, Coordinate.larger_real]
  rw [hlane]
  rfl

theorem orthogonalPoints_real :
    orthogonalPoints a o =
      if a.sourceSide = a.targetSide then lanePoints a o
      else if 2 * o.stub ≤ (a.target.x - a.source.x) * a.sourceSide.outward then
        [a.source, ⟨(a.source.x + a.target.x) / 2, a.source.y⟩, ⟨(a.source.x + a.target.x) / 2, a.target.y⟩, a.target]
      else
        [a.source, ⟨a.source.x + a.sourceSide.outward * o.stub, a.source.y⟩,
          ⟨a.source.x + a.sourceSide.outward * o.stub, (a.source.y + a.target.y) / 2⟩,
          ⟨a.target.x + a.targetSide.outward * o.stub, (a.source.y + a.target.y) / 2⟩,
          ⟨a.target.x + a.targetSide.outward * o.stub, a.target.y⟩, a.target] := by
  rw [← Coordinate.two_real]
  rfl

variable {a}

/-- The controls of a curve are straight out of the sides of its anchors. -/
theorem curvedPath_real {commands : List (PathCommand ℝ)} (h : curvedPath a o = .ok commands) :
    ∃ reach, controlReach a o = .ok reach ∧
      commands = [.moveTo a.source, .cubicTo ⟨a.source.x + a.sourceSide.outward * reach, a.source.y⟩
        ⟨a.target.x + a.targetSide.outward * reach, a.target.y⟩ a.target] := by
  obtain ⟨reach, hreach, rfl⟩ := map_eq_ok_iff.mp h
  refine ⟨reach, hreach, ?_⟩
  simp only [Coordinate.zero_real, Point.add_real, add_zero]

theorem lanePoints_swap (h : a.sourceSide = a.targetSide) : lanePoints a.swap o = (lanePoints a o).reverse := by
  have hlane : laneX a.swap o = laneX a o := by
    simp only [laneX, Anchors.swap, ← h, min_comm, max_comm]
  rw [lanePoints_real, lanePoints_real, hlane]
  rfl

theorem orthogonalPoints_swap (a : Anchors ℝ) : orthogonalPoints a.swap o = (orthogonalPoints a o).reverse := by
  by_cases hside : a.sourceSide = a.targetSide
  · have hside' : a.swap.sourceSide = a.swap.targetSide := hside.symm
    rw [orthogonalPoints_real, orthogonalPoints_real, if_pos hside, if_pos hside', lanePoints_swap o hside]
  · have hroom : (a.source.x - a.target.x) * a.targetSide.outward =
        (a.target.x - a.source.x) * a.sourceSide.outward := by
      rw [Side.outward_of_ne hside]
      ring
    have hside' : ¬a.swap.sourceSide = a.swap.targetSide := fun h => hside h.symm
    rw [orthogonalPoints_real, orthogonalPoints_real, if_neg hside, if_neg hside']
    simp only [Anchors.swap, hroom, add_comm a.target.x, add_comm a.target.y]
    split <;> rfl

/-! ## Steps -/

/-- The points are one point, or far enough apart to be told from each other. -/
def Point.Spaced (p q : Point ℝ) : Prop := p = q ∨ 1 / 10 ^ 5 ≤ p.distance q

theorem Point.Spaced.symm {p q : Point ℝ} (h : p.Spaced q) : q.Spaced p := by
  rw [Point.Spaced, Point.distance_comm]
  exact h.imp_left Eq.symm

theorem Point.spaced_of_x {p q : Point ℝ} (h : 1 / 10 ^ 5 ≤ |q.x - p.x|) : p.Spaced q :=
  .inr (h.trans (p.abs_sub_x_le_distance q))

theorem Point.spaced_of_y {p q : Point ℝ} (h : 1 / 10 ^ 5 ≤ |q.y - p.y|) : p.Spaced q :=
  .inr (h.trans (p.abs_sub_y_le_distance q))

theorem Point.Spaced.steps {p q : Point ℝ} (h : p.Spaced q) (haligned : p.Aligned q) : Steps p q :=
  h.imp_right (exists_leg haligned)

theorem isChain_steps {points : List (Point ℝ)} (hspaced : points.IsChain Point.Spaced)
    (haligned : points.IsChain Point.Aligned) : points.IsChain Steps := by
  induction hspaced with
  | nil => exact .nil
  | singleton p => exact .singleton p
  | cons_cons hpq _ ih =>
      obtain ⟨hpq', hrest⟩ := List.isChain_cons_cons.mp haligned
      exact .cons_cons (hpq.steps hpq') (ih hrest)

theorem isChain_aligned_lanePoints : (lanePoints a o).IsChain Point.Aligned := by
  rw [lanePoints_real]
  simp [Point.Aligned]

theorem isChain_aligned_orthogonalPoints : (orthogonalPoints a o).IsChain Point.Aligned := by
  rw [orthogonalPoints_real]
  split
  · exact isChain_aligned_lanePoints o
  · split <;> simp [Point.Aligned]

theorem isChain_steps_orthogonalPoints (h : (orthogonalPoints a o).IsChain Point.Spaced) :
    (orthogonalPoints a o).IsChain Steps :=
  isChain_steps h (isChain_aligned_orthogonalPoints o)

/-! ## Paths from the other end -/

theorem turnedBack_orthogonalPath (h : (orthogonalPoints a o).IsChain Point.Spaced) :
    TurnedBack (orthogonalPath a o) (orthogonalPath a.swap o) := by
  rw [orthogonalPath, orthogonalPath, orthogonalPoints_swap]
  exact turnedBack_rounded (simplify_reverse (isChain_steps_orthogonalPoints o h)) o.cornerRadius

theorem turnedBack_lane (hside : a.sourceSide = a.targetSide) (h : (lanePoints a o).IsChain Point.Spaced)
    (radius : ℝ) : TurnedBack (rounded (lanePoints a o) radius) (rounded (lanePoints a.swap o) radius) := by
  rw [lanePoints_swap o hside]
  exact turnedBack_rounded (simplify_reverse (isChain_steps h (isChain_aligned_lanePoints o))) radius

/-! ## Out of the table -/

theorem leg_heading {side : Side} {p : Point ℝ} {x : ℝ} (h : 1 / 10 ^ 5 ≤ (x - p.x) * side.outward) :
    Leg side.heading p ⟨x, p.y⟩ := by
  refine ⟨_, h, Point.ext ?_ ?_⟩
  · simp only [Point.walk, Side.dx_heading, mul_assoc, Side.outward_mul_self]
    ring
  · simp only [Point.walk, Side.dy_heading, mul_zero, add_zero]

theorem le_laneX (hlane : 1 / 10 ^ 5 ≤ o.laneOffset) :
    1 / 10 ^ 5 ≤ (laneX a o - a.source.x) * a.sourceSide.outward := by
  rw [laneX]
  cases a.sourceSide with
  | left =>
      have hmin := min_le_left a.source.x a.target.x
      simp only [Side.outward_left]
      linarith
  | right =>
      have hmax := le_max_left a.source.x a.target.x
      simp only [Side.outward_right]
      linarith

/-- A route along the axes starts with a leg straight out of the side of its anchor. -/
theorem exists_leg_orthogonalPoints (hstub : 1 / 10 ^ 5 ≤ o.stub) (hlane : 1 / 10 ^ 5 ≤ o.laneOffset) :
    ∃ p rest, orthogonalPoints a o = a.source :: p :: rest ∧ Leg a.sourceSide.heading a.source p := by
  rw [orthogonalPoints_real]
  split
  · rw [lanePoints_real]
    exact ⟨_, _, rfl, leg_heading (le_laneX o hlane)⟩
  · split
    · next hroom =>
        have hhalf : ((a.source.x + a.target.x) / 2 - a.source.x) * a.sourceSide.outward =
            (a.target.x - a.source.x) * a.sourceSide.outward / 2 := by ring
        exact ⟨_, _, rfl, leg_heading (by rw [hhalf]; linarith)⟩
    · have hexit : (a.source.x + a.sourceSide.outward * o.stub - a.source.x) * a.sourceSide.outward = o.stub := by
        calc (a.source.x + a.sourceSide.outward * o.stub - a.source.x) * a.sourceSide.outward
            = a.sourceSide.outward * a.sourceSide.outward * o.stub := by ring
          _ = o.stub := by rw [Side.outward_mul_self, one_mul]
      exact ⟨_, _, rfl, leg_heading (by rwa [hexit])⟩

end SchemaDiagram
