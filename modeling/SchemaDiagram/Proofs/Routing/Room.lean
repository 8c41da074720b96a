import Mathlib.Tactic.Linarith
import SchemaDiagram.Proofs.Geometry.Exact
import SchemaDiagram.Proofs.Routing.SelfReference

/-! # Room for edges

In exact coordinates an edge draws no line to a point above its tables. Left of its tables it draws one only along
the axes, and no further away than its lane or its stubs are. Corners are cut between the points of a polyline, so
that this does not depend on how exact a square root is.
-/
namespace SchemaDiagram

variable {corner p q : Point ℚ}

/-! ## Between two points -/

theorem le_add_part {low a b part : ℚ} (ha : low ≤ a) (hb : low ≤ b) (hpart : 0 ≤ part) (hpart' : part ≤ 1) :
    low ≤ a + (b - a) * part :=
  calc low = (1 - part) * low + part * low := by ring
    _ ≤ (1 - part) * a + part * b :=
      add_le_add (mul_le_mul_of_nonneg_left ha (sub_nonneg.mpr hpart')) (mul_le_mul_of_nonneg_left hb hpart)
    _ = a + (b - a) * part := by ring

namespace Point

theorem normalizeOr_eq (p fallback : Point ℚ) :
    p.normalizeOr fallback =
      if p.length < Coordinate.tenth 9 then fallback else ⟨p.x / p.length, p.y / p.length⟩ :=
  rfl

theorem distance_comm_exact (p q : Point ℚ) : p.distance q = q.distance p := by
  have hlength : ∀ a b : Point ℚ,
      a.distance b = Rat.sqrt ((b.x - a.x) * (b.x - a.x) + (b.y - a.y) * (b.y - a.y)) := fun _ _ => rfl
  rw [hlength, hlength]
  congr 1
  ring

/-- A point on the way from one point to another is beyond every corner that both are beyond. -/
theorem Beyond.toward (hp : corner.Beyond p) (hq : corner.Beyond q) {d : ℚ} (hd : 0 ≤ d) (hle : d ≤ p.distance q) :
    corner.Beyond (p + ((q - p).normalizeOr zero).scale d) := by
  have hlength : (q - p).length = p.distance q := rfl
  rw [normalizeOr_eq, hlength]
  split
  · have hstays : p + (zero : Point ℚ).scale d = p :=
      Point.ext ((congrArg (p.x + ·) (zero_mul d)).trans (add_zero p.x))
        ((congrArg (p.y + ·) (zero_mul d)).trans (add_zero p.y))
    rwa [hstays]
  · next hlong =>
      -- The length that is divided by is the one that bounds `d`, so its error does not matter.
      have hpos : 0 < p.distance q := (Coordinate.tenth_pos 9).trans_le (not_lt.mp hlong)
      have hpart : 0 ≤ d / p.distance q := div_nonneg hd hpos.le
      have hpart' : d / p.distance q ≤ 1 := (div_le_one hpos).mpr hle
      have hbetween : ∀ a b : ℚ, a + (b - a) / p.distance q * d = a + (b - a) * (d / p.distance q) :=
        fun a b => by ring
      exact ⟨(le_add_part hp.left_le hq.left_le hpart hpart').trans (hbetween p.x q.x).ge,
        (le_add_part hp.top_le hq.top_le hpart hpart').trans (hbetween p.y q.y).ge⟩

/-- The same with the vector that points back. -/
theorem Beyond.toward_back (hp : corner.Beyond p) (hq : corner.Beyond q) {d : ℚ} (hd : 0 ≤ d)
    (hle : d ≤ q.distance p) : corner.Beyond (p - ((p - q).normalizeOr zero).scale d) := by
  have hlength : (p - q).length = (q - p).length := q.distance_comm_exact p
  have hforth : p - ((p - q).normalizeOr zero).scale d = p + ((q - p).normalizeOr zero).scale d := by
    rw [normalizeOr_eq, normalizeOr_eq, hlength]
    split
    · have hzero : ∀ a : ℚ, a - 0 * d = a + 0 * d := fun a => by ring
      exact Point.ext (hzero p.x) (hzero p.y)
    · have hback : ∀ a b l : ℚ, a - (a - b) / l * d = a + (b - a) / l * d := fun a b l => by ring
      exact Point.ext (hback p.x q.x _) (hback p.y q.y _)
  rw [hforth]
  rw [distance_comm_exact] at hle
  exact hp.toward hq hd hle

end Point

/-! ## Corners -/

theorem cornerRadius_le (radius : ℚ) (before at' after : Point ℚ) :
    cornerRadius radius before at' after ≤ before.distance at' / 2 ∧
      cornerRadius radius before at' after ≤ at'.distance after / 2 := by
  rw [cornerRadius, Coordinate.smaller_eq_min, Coordinate.smaller_eq_min]
  exact ⟨(min_le_left _ _).trans (min_le_right _ _), min_le_right _ _⟩

theorem beyond_of_mem_turn {before at' after : Point ℚ} (hbefore : corner.Beyond before) (hat : corner.Beyond at')
    (hafter : corner.Beyond after) (radius : ℚ) : ∀ c ∈ turn radius before at' after, corner.Beyond c.stop := by
  simp only [turn]
  split
  · simpa [PathCommand.stop] using hat
  · next hcut =>
      have hpos : 0 ≤ cornerRadius radius before at' after := (Coordinate.tenth_pos 6).le.trans (not_lt.mp hcut)
      obtain ⟨hbefore', hafter'⟩ := cornerRadius_le radius before at' after
      have hin := hat.toward_back hbefore hpos (by linarith)
      have hout := hat.toward hafter hpos (by linarith)
      simpa [PathCommand.stop] using ⟨hin, hout⟩

theorem beyond_of_mem_turns (radius : ℚ) {points : List (Point ℚ)} (h : ∀ p ∈ points, corner.Beyond p) :
    ∀ c ∈ turns radius points, corner.Beyond c.stop := by
  fun_induction turns radius points with
  | case1 before at' after rest ih =>
      have hturn := beyond_of_mem_turn (h before (by simp)) (h at' (by simp)) (h after (by simp)) radius
      have hrest := ih fun p hp => h p (List.mem_cons_of_mem _ hp)
      intro c hc
      exact (List.mem_append.mp hc).elim (hturn c) (hrest c)
  | case2 => simp

theorem beyond_of_mem_rounded {points : List (Point ℚ)} (h : ∀ p ∈ points, corner.Beyond p) (radius : ℚ) :
    ∀ c ∈ rounded points radius, corner.Beyond c.stop := by
  have hleft : ∀ p ∈ simplify points, corner.Beyond p := fun p hp => h p (mem_of_mem_simplify hp)
  rcases hpoints : simplify points with _ | ⟨p, rest⟩
  · simp [rounded, hpoints]
  · rw [hpoints] at hleft
    rcases List.eq_nil_or_concat' rest with rfl | ⟨more, last, rfl⟩
    · simpa [rounded, hpoints, PathCommand.stop] using hleft
    · rw [rounded_eq hpoints]
      intro c hc
      rcases List.mem_cons.mp hc with rfl | hc
      · exact hleft p (by simp)
      · rcases List.mem_append.mp hc with hc | hc
        · exact beyond_of_mem_turns radius hleft c hc
        · obtain rfl := List.mem_singleton.mp hc
          exact hleft last (by simp)

/-! ## Paths -/

/-- The corner, moved to the right. -/
def Point.inset (corner : Point ℚ) (room : ℚ) : Point ℚ := ⟨corner.x + room, corner.y⟩

theorem Point.beyond_inset {room : ℚ} (h : 0 ≤ room) (corner : Point ℚ) : corner.Beyond (corner.inset room) :=
  ⟨le_add_of_nonneg_right h, le_refl _⟩

theorem Side.neg_le_outward_mul (side : Side) {d : ℚ} (hd : 0 ≤ d) : -d ≤ side.outward * d := by
  cases side with
  | left => exact (neg_one_mul d).ge
  | right => exact (neg_le_self hd).trans (one_mul d).ge

/-- How far left of its tables an edge may draw a line. -/
def RoutingOptions.room (o : RoutingOptions ℚ) : RoutingStyle → ℚ
  | .orthogonal => max o.laneOffset o.stub
  | .straight | .curved => 0

/-- Lanes and stubs lead away from the tables. -/
structure RoutingOptions.Outward (o : RoutingOptions ℚ) : Prop where
  laneOffset_nonneg : 0 ≤ o.laneOffset
  stub_nonneg : 0 ≤ o.stub

variable {o : RoutingOptions ℚ} {a : Anchors ℚ} {style : RoutingStyle}

theorem RoutingOptions.Outward.room_nonneg (h : o.Outward) (style : RoutingStyle) : 0 ≤ o.room style := by
  cases style with
  | orthogonal => exact h.laneOffset_nonneg.trans (le_max_left _ _)
  | straight => exact le_refl 0
  | curved => exact le_refl 0

section

variable {room : ℚ} (hsource : (corner.inset room).Beyond a.source) (htarget : (corner.inset room).Beyond a.target)

include hsource htarget

theorem beyond_of_mem_lanePoints (ho : o.Outward) (hroom : 0 ≤ room)
    (hleft : a.sourceSide = .left → o.laneOffset ≤ room) : ∀ p ∈ lanePoints a o, corner.Beyond p := by
  have hs : corner.Beyond a.source := (corner.beyond_inset hroom).trans hsource
  have ht : corner.Beyond a.target := (corner.beyond_inset hroom).trans htarget
  have hcorners : ∀ x : ℚ, corner.x ≤ x →
      ∀ p ∈ [a.source, ⟨x, a.source.y⟩, ⟨x, a.target.y⟩, a.target], corner.Beyond p := by
    intro x hx p hp
    simp only [List.mem_cons, List.not_mem_nil, or_false] at hp
    rcases hp with rfl | rfl | rfl | rfl
    · exact hs
    · exact ⟨hx, hs.top_le⟩
    · exact ⟨hx, ht.top_le⟩
    · exact ht
  refine hcorners _ ?_
  split
  · next hside =>
      have hmin : corner.x + room ≤ min a.source.x a.target.x := le_min hsource.left_le htarget.left_le
      rw [Coordinate.smaller_eq_min]
      exact le_sub_iff_add_le.mpr ((add_le_add_right (hleft hside) corner.x).trans hmin)
  · rw [Coordinate.larger_eq_max]
    exact hs.left_le.trans ((le_max_left _ _).trans (le_add_of_nonneg_right ho.laneOffset_nonneg))

theorem beyond_of_mem_orthogonalPoints (ho : o.Outward) (hlane : o.laneOffset ≤ room) (hstub : o.stub ≤ room) :
    ∀ p ∈ orthogonalPoints a o, corner.Beyond p := by
  have hroom : 0 ≤ room := ho.stub_nonneg.trans hstub
  have hs : corner.Beyond a.source := (corner.beyond_inset hroom).trans hsource
  have ht : corner.Beyond a.target := (corner.beyond_inset hroom).trans htarget
  have hmiddle : ∀ {low b c : ℚ}, low ≤ b → low ≤ c → low ≤ (b + c) / 2 := fun hb hc => by linarith
  have hout : ∀ {b : ℚ} (side : Side), corner.x + room ≤ b → corner.x ≤ b + side.outward * o.stub := by
    intro b side hb
    have hback := side.neg_le_outward_mul ho.stub_nonneg
    linarith
  simp only [orthogonalPoints]
  split
  · exact beyond_of_mem_lanePoints hsource htarget ho hroom fun _ => hlane
  · intro p hp
    split at hp <;> simp only [List.mem_cons, List.not_mem_nil, or_false] at hp
    · rcases hp with rfl | rfl | rfl | rfl
      · exact hs
      · exact ⟨hmiddle hs.left_le ht.left_le, hs.top_le⟩
      · exact ⟨hmiddle hs.left_le ht.left_le, ht.top_le⟩
      · exact ht
    · rcases hp with rfl | rfl | rfl | rfl | rfl | rfl
      · exact hs
      · exact ⟨hout _ hsource.left_le, hs.top_le⟩
      · exact ⟨hout _ hsource.left_le, hmiddle hs.top_le ht.top_le⟩
      · exact ⟨hout _ htarget.left_le, hmiddle hs.top_le ht.top_le⟩
      · exact ⟨hout _ htarget.left_le, ht.top_le⟩
      · exact ht

end

theorem beyond_of_mem_path {commands : List (PathCommand ℚ)} (h : path style a o = .ok commands) (ho : o.Outward)
    (hlooped : a.looped = true → a.sourceSide = .right) (hsource : (corner.inset (o.room style)).Beyond a.source)
    (htarget : (corner.inset (o.room style)).Beyond a.target) : ∀ c ∈ commands, corner.Beyond c.stop := by
  have hroom : 0 ≤ o.room style := ho.room_nonneg style
  have hs : corner.Beyond a.source := (corner.beyond_inset hroom).trans hsource
  have ht : corner.Beyond a.target := (corner.beyond_inset hroom).trans htarget
  cases style with
  | straight =>
      obtain rfl := Except.ok.inj h
      rw [straightPath]
      split
      · next hloop =>
          refine beyond_of_mem_rounded (beyond_of_mem_lanePoints hsource htarget ho hroom fun hleft => ?_) _
          rw [hlooped hloop] at hleft
          cases hleft
      · simpa [PathCommand.stop] using ⟨hs, ht⟩
  | curved =>
      obtain ⟨reach, -, rfl⟩ := map_eq_ok_iff.mp h
      simpa [PathCommand.stop] using ⟨hs, ht⟩
  | orthogonal =>
      obtain rfl := Except.ok.inj h
      exact beyond_of_mem_rounded
        (beyond_of_mem_orthogonalPoints hsource htarget ho (le_max_left _ _) (le_max_right _ _)) _

/-! ## Edges -/

theorem RowEnd.beyond_of_anchor {e : RowEnd ℚ} {side : Side} (h : e.anchor side = .ok p)
    (hwidth : 0 ≤ e.rect.size.width) : e.rect.origin.Beyond p := by
  obtain ⟨offset, hoffset, rfl⟩ := map_eq_ok_iff.mp h
  refine ⟨?_, le_add_of_nonneg_right (Coordinate.le_of_clamp hoffset)⟩
  cases side with
  | left => exact le_refl _
  | right => exact le_add_of_nonneg_right hwidth

theorem Edge.beyond_of_between {index : Nat} {kind : RelationKind} {source target : RowEnd ℚ} {looped : Bool}
    {e : Edge ℚ} (h : between o style index kind source target looped = .ok e) (ho : o.Outward)
    (hsource : (corner.inset (o.room style)).Beyond source.rect.origin ∧ 0 ≤ source.rect.size.width)
    (htarget : (corner.inset (o.room style)).Beyond target.rect.origin ∧ 0 ≤ target.rect.size.width) :
    ∀ c ∈ e.path, corner.Beyond c.stop := by
  obtain ⟨a, ha, h⟩ := bind_eq_ok_iff.mp h
  obtain ⟨commands, hpath, rfl⟩ := map_eq_ok_iff.mp h
  obtain ⟨start, hstart, ha⟩ := bind_eq_ok_iff.mp ha
  obtain ⟨stop, hstop, rfl⟩ := map_eq_ok_iff.mp ha
  refine beyond_of_mem_path hpath ho ?_ (hsource.1.trans (RowEnd.beyond_of_anchor hstart hsource.2))
    (htarget.1.trans (RowEnd.beyond_of_anchor hstop htarget.2))
  rintro rfl
  rfl

theorem PathCommand.stop_map {α : Type} (f : Point α → Point α) (c : PathCommand α) : (c.map f).stop = f c.stop := by
  cases c <;> rfl

theorem PathCommand.stop_mem_pathPoints {α : Type} [Coordinate α] {c : PathCommand α} {commands : List (PathCommand α)}
    (h : c ∈ commands) : c.stop ∈ pathPoints commands :=
  List.mem_flatMap.mpr ⟨c, h, by cases c <;> simp [points, stop]⟩

variable {m : Metrics ℚ} {tables : List (PlacedTable ℚ)}

/-- With room left of all tables, no edge draws a line to a point that is left of the corner or above it. -/
theorem beyond_of_routeEdges {factor : ℚ} {relationships : List Relationship} {edges : List (Edge ℚ)}
    (h : routeEdges m o style factor tables relationships = .ok edges) (hfactor : 0 ≤ factor) (ho : o.Outward)
    (hplaced : ∀ t ∈ tables, (corner.inset (o.room style)).Beyond t.position)
    (hwidth : ∀ t ∈ tables, ∀ size, t.effectiveSize m = .ok size → 0 ≤ size.width) :
    ∀ e ∈ edges, ∀ c ∈ e.path, (corner.scale factor).Beyond c.stop := by
  have hrow : ∀ {e : Endpoint} {row : RowEnd ℚ}, rowEnd m tables e = .ok (some row) →
      (corner.inset (o.room style)).Beyond row.rect.origin ∧ 0 ≤ row.rect.size.width := by
    intro e row hrow
    obtain ⟨t, size, ht, hsize, hrect⟩ := rowEnd_eq_some hrow
    have hmem := List.mem_of_find?_eq_some ht
    rw [hrect]
    exact ⟨hplaced t hmem, hwidth t hmem size hsize⟩
  intro e he c hc
  obtain ⟨-, -, hedge⟩ := routeEdges_spec h
  obtain ⟨r, unscaled, -, hrelated, rfl⟩ := hedge e he
  obtain ⟨source, target, hsource, htarget, hbetween⟩ := ofRelationship_eq_some hrelated
  obtain ⟨c, hmem, rfl⟩ := List.mem_map.mp hc
  rw [PathCommand.stop_map]
  exact (Edge.beyond_of_between hbetween ho (hrow hsource) (hrow htarget) c hmem).scale hfactor

end SchemaDiagram
