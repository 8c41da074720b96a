import SchemaDiagram.Proofs.Failure
import SchemaDiagram.Routing.Path

/-! # Ends of a path

However many points of a polyline are left out or replaced, its first point stays, and its last one does too
unless the line comes next to it before. So a path starts at the one anchor and ends at the other, or next to it.
-/
namespace SchemaDiagram

variable {α : Type} [Coordinate α]

/-- `p` is `q`, or so close to it that a polyline which has come to `p` leaves `q` out. -/
def Point.Near (p q : Point α) : Prop := p = q ∨ p.distance q < tolerance

/-! ## Simplified polylines -/

/-- A new point is left out, replaces a last point in the middle of a straight run, or is put behind it. -/
theorem extendPolyline_cases (b : Point α) (rest : List (Point α)) (p : Point α) :
    (b.distance p < tolerance ∧ extendPolyline (b :: rest) p = b :: rest) ∨
    (¬b.distance p < tolerance ∧ extendPolyline (b :: rest) p = p :: b :: rest) ∨
    ∃ a more, rest = a :: more ∧ ¬b.distance p < tolerance ∧ 0 < (b - a).x * (p - b).x + (b - a).y * (p - b).y ∧
      extendPolyline (b :: rest) p = p :: rest := by
  by_cases hnear : b.distance p < tolerance
  · exact .inl ⟨hnear, by cases rest <;> exact if_pos hnear⟩
  · cases rest with
    | nil => exact .inr (.inl ⟨hnear, if_neg hnear⟩)
    | cons a more =>
        rw [extendPolyline, if_neg hnear]
        simp only
        split
        · next hrun => exact .inr (.inr ⟨a, more, rfl, hnear, hrun.2, rfl⟩)
        · exact .inr (.inl ⟨hnear, rfl⟩)

/-- The point that was the first one stays the first one. -/
theorem getLast?_extendPolyline {newest : List (Point α)} {first : Point α} (h : newest.getLast? = some first)
    (p : Point α) : (extendPolyline newest p).getLast? = some first := by
  cases newest with
  | nil => cases h
  | cons b rest =>
      rcases extendPolyline_cases b rest p with ⟨-, heq⟩ | ⟨-, heq⟩ | ⟨a, more, rfl, -, -, heq⟩
      · rwa [heq]
      · rwa [heq, List.getLast?_cons_cons]
      · rwa [heq, List.getLast?_cons_cons, ← List.getLast?_cons_cons]

theorem exists_head?_extendPolyline (newest : List (Point α)) (p : Point α) :
    ∃ q, (extendPolyline newest p).head? = some q ∧ q.Near p := by
  cases newest with
  | nil => exact ⟨p, rfl, .inl rfl⟩
  | cons b rest =>
      rcases extendPolyline_cases b rest p with ⟨hnear, heq⟩ | ⟨-, heq⟩ | ⟨a, more, -, -, -, heq⟩
      · exact ⟨b, by rw [heq]; rfl, .inr hnear⟩
      · exact ⟨p, by rw [heq]; rfl, .inl rfl⟩
      · exact ⟨p, by rw [heq]; rfl, .inl rfl⟩

theorem head?_simplify (first : Point α) (more : List (Point α)) : (simplify (first :: more)).head? = some first := by
  have hfold : ∀ newest : List (Point α), newest.getLast? = some first →
      (more.foldl extendPolyline newest).getLast? = some first := by
    induction more with
    | nil => exact fun _ h => h
    | cons p more ih => exact fun newest h => ih _ (getLast?_extendPolyline h p)
  rw [simplify, List.head?_reverse]
  exact hfold [first] rfl

theorem exists_getLast?_simplify (points : List (Point α)) (last : Point α) :
    ∃ q, (simplify (points ++ [last])).getLast? = some q ∧ q.Near last := by
  rw [simplify, List.getLast?_reverse, List.foldl_append]
  exact exists_head?_extendPolyline _ last

/-! ## Paths -/

/-- The path starts at one point and ends next to another. -/
structure Joins (commands : List (PathCommand α)) (first last : Point α) : Prop where
  start : commands.head? = some (.moveTo first)
  stop : ∃ c, commands.getLast? = some c ∧ c.stop.Near last

theorem joins_rounded (first : Point α) (more : List (Point α)) (last : Point α) (radius : α) :
    Joins (rounded (first :: more ++ [last]) radius) first last := by
  have hhead := head?_simplify first (more ++ [last])
  obtain ⟨q, hlast, hq⟩ := exists_getLast?_simplify (first :: more) last
  rw [List.cons_append] at hlast ⊢
  rw [rounded]
  split
  · next hnil =>
      rw [hnil] at hhead
      cases hhead
  · next p hsingle =>
      rw [hsingle] at hhead hlast
      cases hhead
      cases hlast
      exact ⟨rfl, _, rfl, hq⟩
  · next p next rest hpoints =>
      rw [hpoints] at hhead hlast
      cases hhead
      rw [List.getLast?_cons_cons, List.getLast?_eq_getLast_of_ne_nil (List.cons_ne_nil next rest)] at hlast
      cases hlast
      exact ⟨rfl, _, List.getLast?_concat, hq⟩

theorem exists_lanePoints (a : Anchors α) (o : RoutingOptions α) :
    ∃ more, lanePoints a o = a.source :: more ++ [a.target] :=
  ⟨[_, _], rfl⟩

theorem exists_orthogonalPoints (a : Anchors α) (o : RoutingOptions α) :
    ∃ more, orthogonalPoints a o = a.source :: more ++ [a.target] := by
  simp only [orthogonalPoints]
  split
  · exact exists_lanePoints a o
  · split
    · exact ⟨[_, _], rfl⟩
    · exact ⟨[_, _, _, _], rfl⟩

/-- In every style a path leads from one anchor to the other. -/
theorem joins_of_path {style : RoutingStyle} {a : Anchors α} {o : RoutingOptions α} {commands : List (PathCommand α)}
    (h : path style a o = .ok commands) : Joins commands a.source a.target := by
  cases style with
  | straight =>
      obtain rfl := Except.ok.inj h
      rw [straightPath]
      split
      · obtain ⟨more, hpoints⟩ := exists_lanePoints a o
        rw [hpoints]
        exact joins_rounded a.source more a.target 0
      · exact ⟨rfl, _, rfl, .inl rfl⟩
  | curved =>
      obtain ⟨reach, -, rfl⟩ := map_eq_ok_iff.mp h
      exact ⟨rfl, _, rfl, .inl rfl⟩
  | orthogonal =>
      obtain rfl := Except.ok.inj h
      obtain ⟨more, hpoints⟩ := exists_orthogonalPoints a o
      rw [orthogonalPath, hpoints]
      exact joins_rounded a.source more a.target o.cornerRadius

end SchemaDiagram
