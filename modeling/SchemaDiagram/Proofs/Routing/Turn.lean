import SchemaDiagram.Proofs.Geometry.Real
import SchemaDiagram.Proofs.Routing.Piece
import SchemaDiagram.Routing.Edge

/-! # Corners from either end

A corner is cut by the same curve from either side, so a polyline with its corners cut is the way back along the one
from its other end. Where a path leaves its start it does so against the direction in which the way back arrives.
-/
namespace SchemaDiagram

/-! ## Corners -/

theorem cornerRadius_real (radius : ℝ) (before corner after : Point ℝ) :
    cornerRadius radius before corner after =
      min (min (max radius 0) (before.distance corner / 2)) (corner.distance after / 2) := by
  rw [← Coordinate.larger_real, ← Coordinate.smaller_real, ← Coordinate.smaller_real, ← Coordinate.zero_real,
    ← Coordinate.two_real]
  rfl

theorem cornerRadius_comm (radius : ℝ) (before corner after : Point ℝ) :
    cornerRadius radius after corner before = cornerRadius radius before corner after := by
  rw [cornerRadius_real, cornerRadius_real, after.distance_comm, corner.distance_comm before]
  exact min_right_comm ..

/-- At most half of a segment is cut off. -/
theorem cornerRadius_le_before (radius : ℝ) (before corner after : Point ℝ) :
    cornerRadius radius before corner after ≤ before.distance corner / 2 := by
  rw [cornerRadius_real]
  exact (min_le_left _ _).trans (min_le_right _ _)

theorem cornerRadius_le_after (radius : ℝ) (before corner after : Point ℝ) :
    cornerRadius radius before corner after ≤ corner.distance after / 2 := by
  rw [cornerRadius_real]
  exact min_le_right _ _

theorem Point.sub_scale_back (p v : Point ℝ) (d : ℝ) : p - (v.scale (-1)).scale d = p + v.scale d := by
  simp [sub_real, add_real, scale_real]

/-- A corner is left as it is, or cut by a curve between two points that change places from the other side. -/
theorem turn_cases (radius : ℝ) (before corner after : Point ℝ) :
    (turn radius before corner after = [.lineTo corner] ∧ turn radius after corner before = [.lineTo corner]) ∨
    ∃ p q, turn radius before corner after = [.lineTo p, .quadTo corner q] ∧
      turn radius after corner before = [.lineTo q, .quadTo corner p] := by
  have hforth (v : Point ℝ) (r : ℝ) : corner + (v.scale (-1)).scale r = corner - v.scale r := by
    simp [Point.sub_real, Point.add_real, Point.scale_real, sub_eq_add_neg]
  simp only [turn]
  rw [cornerRadius_comm radius before corner after, after.normalizeOr_sub_comm corner,
    corner.normalizeOr_sub_comm before, corner.sub_scale_back, hforth]
  split
  · exact .inl ⟨rfl, rfl⟩
  · exact .inr ⟨_, _, rfl, rfl⟩

/-! ## Polylines -/

theorem exists_turns_cons {α : Type} [Coordinate α] (radius : α) (p corner : Point α) (more : List (Point α))
    (last : Point α) : ∃ q rest, more ++ [last] = q :: rest ∧
      turns radius (p :: corner :: more ++ [last]) =
        turn radius p corner q ++ turns radius (corner :: more ++ [last]) := by
  cases more with
  | nil => exact ⟨last, [], rfl, rfl⟩
  | cons q more => exact ⟨q, more ++ [last], rfl, rfl⟩

theorem turns_concat {α : Type} [Coordinate α] (radius : α) (front : List (Point α)) (p corner q : Point α) :
    turns radius (front ++ [p, corner, q]) = turns radius (front ++ [p, corner]) ++ turn radius p corner q := by
  induction front with
  | nil => exact List.append_nil _
  | cons a front ih =>
      rcases front with _ | ⟨b, _ | ⟨c, front⟩⟩
      · exact (congrArg (turn radius a p corner ++ ·) ih).trans (List.append_assoc ..).symm
      · exact (congrArg (turn radius a b p ++ ·) ih).trans (List.append_assoc ..).symm
      · exact (congrArg (turn radius a b c ++ ·) ih).trans (List.append_assoc ..).symm

theorem rounded_eq {α : Type} [Coordinate α] {points more : List (Point α)} {p last : Point α}
    (h : simplify points = p :: more ++ [last]) (radius : α) :
    rounded points radius = .moveTo p :: (turns radius (p :: more ++ [last]) ++ [.lineTo last]) := by
  cases more with
  | nil => simp only [rounded, h]; rfl
  | cons q more =>
      have hlast : (q :: (more ++ [last])).getLast (List.cons_ne_nil _ _) = last :=
        List.getLast_append_singleton (q :: more)
      simp only [rounded, h, List.cons_append, hlast]

theorem wayBack_turns (radius : ℝ) (pen : Point ℝ) (done : List (PathCommand ℝ)) (p : Point ℝ)
    (more : List (Point ℝ)) (last : Point ℝ) :
    wayBack pen done (turns radius (p :: more ++ [last]) ++ [.lineTo last]) =
      .moveTo last :: (turns radius (last :: more.reverse ++ [p]) ++ .lineTo pen :: done) := by
  induction more generalizing p pen done with
  | nil => rfl
  | cons corner more ih =>
      obtain ⟨q, rest, hmore, hturns⟩ := exists_turns_cons radius p corner more last
      have hreverse : last :: more.reverse = rest.reverse ++ [q] := by
        have h := congrArg List.reverse hmore
        rwa [List.reverse_concat, List.reverse_cons] at h
      have hback : turns radius (last :: (corner :: more).reverse ++ [p]) =
          turns radius (last :: more.reverse ++ [corner]) ++ turn radius q corner p := by
        have hconcat := turns_concat radius rest.reverse q corner p
        rw [List.reverse_cons, ← List.cons_append, hreverse]
        simpa using hconcat
      rw [hturns, hback]
      rcases turn_cases radius p corner q with ⟨hturn, hturn'⟩ | ⟨b, a, hturn, hturn'⟩
      · rw [hturn, hturn']
        simpa [wayBack, PathCommand.stop, PathCommand.backTo] using ih corner (.lineTo pen :: done) corner
      · rw [hturn, hturn']
        simpa [wayBack, PathCommand.stop, PathCommand.backTo] using
          ih a (.quadTo corner b :: .lineTo pen :: done) corner

/-- From the other end of a polyline the path with rounded corners is the way back. -/
theorem turnedBack_rounded {points points' : List (Point ℝ)} (h : simplify points' = (simplify points).reverse)
    (radius : ℝ) : TurnedBack (rounded points radius) (rounded points' radius) := by
  rcases hpoints : simplify points with _ | ⟨p, rest⟩
  · rw [hpoints] at h
    simp only [rounded, h, hpoints]
    exact ⟨rfl, rfl⟩
  · rw [hpoints] at h
    rcases List.eq_nil_or_concat' rest with rfl | ⟨more, last, rfl⟩
    · simp only [rounded, h, hpoints]
      exact ⟨rfl, rfl⟩
    · have hpoints' : simplify points' = last :: more.reverse ++ [p] := by
        rw [h, List.reverse_cons, List.reverse_concat]
      rw [rounded_eq hpoints, rounded_eq hpoints', ← wayBack_turns radius p [] p more last]
      exact turnedBack_wayBack p _

/-! ## Directions -/

/-- A path arrives against the direction in which the way back leaves. -/
theorem endDirection?_eq {commands commands' : List (PathCommand ℝ)}
    (h : pathPoints commands' = (pathPoints commands).reverse) :
    endDirection? commands = (startDirection? commands').map (·.scale (-1)) := by
  rw [endDirection?, startDirection?, h]
  cases (pathPoints commands).reverse with
  | nil => rfl
  | cons last before =>
      rw [Option.map_map]
      exact Option.map_congr fun p _ => p.normalizeOr_sub_comm last

theorem ArrowHead.ofPath_real (kind : RelationKind) (commands : List (PathCommand ℝ)) (a : Anchors ℝ)
    (o : RoutingOptions ℝ) : ofPath kind commands a o =
      (if kind.pointsAtFrom then
        [pointing a.source (((startDirection? commands).map (·.scale (-1))).getD ⟨-a.sourceSide.outward, 0⟩)
          o.arrowLength o.arrowWidth] else []) ++
      if kind.pointsAtTo then
        [pointing a.target ((endDirection? commands).getD ⟨-a.targetSide.outward, 0⟩) o.arrowLength o.arrowWidth]
      else [] := by
  rw [← Coordinate.one_real, ← Coordinate.zero_real]
  rfl

end SchemaDiagram
