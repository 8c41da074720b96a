import SchemaDiagram.Proofs.Routing.Attachment
import SchemaDiagram.Proofs.Routing.Waypoint

/-! # Edges from a table to itself

Points are cut off between the points of a polyline, so a polyline at one side of a line stays there when its corners
are cut. The lane of an edge from a table to itself is at the right of the table, and so is the whole edge, in every
style.
-/
namespace SchemaDiagram

variable {x : ℝ}

/-! ## Beside a line -/

/-- A point on the way between two points is right of every vertical line that both are right of. -/
theorem Point.le_x_toward {p q : Point ℝ} {d : ℝ} (hp : x ≤ p.x) (hq : x ≤ q.x) (hd : 0 ≤ d)
    (hle : d ≤ p.distance q) : x ≤ (p + ((q - p).normalizeOr zero).scale d).x := by
  have hlength : (q - p).length = p.distance q := rfl
  rw [normalizeOr_real, hlength]
  split
  · simpa [zero_real, scale_real, add_real] using hp
  · next hlong =>
      have hpos : 0 < p.distance q := lt_of_lt_of_le (by positivity) (not_lt.mp hlong)
      have hpart : d / p.distance q ≤ 1 := (div_le_one hpos).mpr hle
      have hpart' : 0 ≤ d / p.distance q := div_nonneg hd hpos.le
      have hbetween : p.x + (q.x - p.x) / p.distance q * d =
          (1 - d / p.distance q) * p.x + d / p.distance q * q.x := by ring
      calc x = (1 - d / p.distance q) * x + d / p.distance q * x := by ring
        _ ≤ (1 - d / p.distance q) * p.x + d / p.distance q * q.x :=
          add_le_add (mul_le_mul_of_nonneg_left hp (sub_nonneg.mpr hpart)) (mul_le_mul_of_nonneg_left hq hpart')
        _ = p.x + (q.x - p.x) / p.distance q * d := hbetween.symm

theorem le_x_of_mem_turn {before corner after : Point ℝ} (hbefore : x ≤ before.x) (hcorner : x ≤ corner.x)
    (hafter : x ≤ after.x) (radius : ℝ) : ∀ p ∈ pathPoints (turn radius before corner after), x ≤ p.x := by
  simp only [turn]
  split
  · simpa [pathPoints, PathCommand.points] using hcorner
  · next hcut =>
      have hpos : 0 ≤ cornerRadius radius before corner after := tolerance_pos.le.trans (not_lt.mp hcut)
      have hin : cornerRadius radius before corner after ≤ corner.distance before := by
        rw [corner.distance_comm]
        linarith [cornerRadius_le_before radius before corner after, before.distance_nonneg corner]
      have hout : cornerRadius radius before corner after ≤ corner.distance after := by
        linarith [cornerRadius_le_after radius before corner after, corner.distance_nonneg after]
      rw [before.normalizeOr_sub_comm corner, corner.sub_scale_back]
      simpa [pathPoints, PathCommand.points] using
        ⟨Point.le_x_toward hcorner hbefore hpos hin, hcorner, Point.le_x_toward hcorner hafter hpos hout⟩

theorem le_x_of_mem_turns (radius : ℝ) {points : List (Point ℝ)} (h : ∀ p ∈ points, x ≤ p.x) :
    ∀ p ∈ pathPoints (turns radius points), x ≤ p.x := by
  fun_induction turns radius points with
  | case1 before corner after rest ih =>
      have hturn := le_x_of_mem_turn (h before (by simp)) (h corner (by simp)) (h after (by simp)) radius
      have hrest := ih fun p hp => h p (List.mem_cons_of_mem _ hp)
      intro p hp
      rw [pathPoints, List.flatMap_append, List.mem_append] at hp
      exact hp.elim (hturn p) (hrest p)
  | case2 => simp [pathPoints]

/-! ## What is left of a polyline -/

section Points

variable {α : Type} [Coordinate α]

theorem mem_of_mem_extendPolyline {newest : List (Point α)} {p q : Point α} (h : q ∈ extendPolyline newest p) :
    q = p ∨ q ∈ newest := by
  cases newest with
  | nil => exact .inl (List.mem_singleton.mp h)
  | cons b rest =>
      rcases extendPolyline_cases b rest p with ⟨-, heq⟩ | ⟨-, heq⟩ | ⟨_, _, -, -, -, heq⟩
      · rw [heq] at h
        exact .inr h
      · rw [heq] at h
        exact List.mem_cons.mp h
      · rw [heq] at h
        exact (List.mem_cons.mp h).imp_right (List.mem_cons_of_mem b)

theorem mem_of_mem_simplify {points : List (Point α)} {q : Point α} (h : q ∈ simplify points) : q ∈ points := by
  have hfold : ∀ newest : List (Point α), q ∈ points.foldl extendPolyline newest → q ∈ points ∨ q ∈ newest := by
    clear h
    induction points with
    | nil => exact fun _ h => .inr h
    | cons p rest ih =>
        intro newest h
        rcases ih _ h with hrest | hnewest
        · exact .inl (List.mem_cons_of_mem p hrest)
        · exact (mem_of_mem_extendPolyline hnewest).imp_left fun (heq : q = p) => heq ▸ List.mem_cons_self
  exact (hfold [] (List.mem_reverse.mp h)).resolve_right List.not_mem_nil

theorem mem_extendPolyline_of_mem {b q : Point α} {rest : List (Point α)} (h : q ∈ rest) (p : Point α) :
    q ∈ extendPolyline (b :: rest) p := by
  rcases extendPolyline_cases b rest p with ⟨-, heq⟩ | ⟨-, heq⟩ | ⟨_, _, -, -, -, heq⟩
  · rw [heq]
    exact List.mem_cons_of_mem b h
  · rw [heq]
    exact List.mem_cons_of_mem p (List.mem_cons_of_mem b h)
  · rw [heq]
    exact List.mem_cons_of_mem p h

theorem mem_pathPoints_turns (radius : α) (p : Point α) {more : List (Point α)} {corner : Point α}
    (h : corner ∈ more) (last : Point α) : corner ∈ pathPoints (turns radius (p :: more ++ [last])) := by
  induction more generalizing p with
  | nil => cases h
  | cons first more ih =>
      obtain ⟨q, rest, -, hturns⟩ := exists_turns_cons radius p first more last
      rw [hturns, pathPoints, List.flatMap_append, List.mem_append]
      rcases List.mem_cons.mp h with rfl | h
      · refine .inl ?_
        simp only [turn]
        split <;> simp [PathCommand.points]
      · exact .inr (ih first h)

/-- A path comes by every point that is left of its polyline, at least as a control point. -/
theorem mem_pathPoints_rounded {points : List (Point α)} {q : Point α} (h : q ∈ simplify points) (radius : α) :
    q ∈ pathPoints (rounded points radius) := by
  rcases hpoints : simplify points with _ | ⟨p, rest⟩
  · rw [hpoints] at h
    cases h
  · rw [hpoints] at h
    rcases List.eq_nil_or_concat' rest with rfl | ⟨more, last, rfl⟩
    · simpa [rounded, hpoints, pathPoints, PathCommand.points] using h
    · rw [rounded_eq hpoints]
      rcases List.mem_cons.mp h with rfl | h
      · simp [pathPoints, PathCommand.points]
      · rcases List.mem_append.mp h with h | h
        · have hturns := mem_pathPoints_turns radius p h last
          rw [pathPoints, List.flatMap_cons, List.flatMap_append, List.mem_append, List.mem_append]
          exact .inr (.inl hturns)
        · obtain rfl := List.mem_singleton.mp h
          simp [pathPoints, PathCommand.points]

end Points

theorem le_x_of_mem_rounded {points : List (Point ℝ)} (h : ∀ p ∈ points, x ≤ p.x) (radius : ℝ) :
    ∀ p ∈ pathPoints (rounded points radius), x ≤ p.x := by
  have hleft : ∀ p ∈ simplify points, x ≤ p.x := fun p hp => h p (mem_of_mem_simplify hp)
  rcases hpoints : simplify points with _ | ⟨p, rest⟩
  · simp [rounded, hpoints, pathPoints]
  · rw [hpoints] at hleft
    rcases List.eq_nil_or_concat' rest with rfl | ⟨more, last, rfl⟩
    · simpa [rounded, hpoints, pathPoints, PathCommand.points] using hleft
    · have hturns := le_x_of_mem_turns radius hleft
      intro q hq
      rw [rounded_eq hpoints, pathPoints, List.flatMap_cons, List.flatMap_append, List.mem_append,
        List.mem_append] at hq
      rcases hq with hq | hq | hq
      · obtain rfl := List.mem_singleton.mp hq
        exact hleft q (by simp)
      · exact hturns q hq
      · obtain rfl : q = last := by simpa [PathCommand.points] using hq
        exact hleft q (by simp)

/-! ## The lane -/

/-- Where a polyline turns by a right angle or back its last point stays. -/
theorem extendPolyline_turn (a b p : Point ℝ)
    (h : (b.x - a.x) * (p.x - b.x) + (b.y - a.y) * (p.y - b.y) ≤ 0) (rest : List (Point ℝ)) :
    extendPolyline (b :: a :: rest) p = b :: a :: rest ∨ extendPolyline (b :: a :: rest) p = p :: b :: a :: rest := by
  rw [extendPolyline_real]
  split
  · exact .inl rfl
  · exact .inr (if_neg fun hrun => not_lt.mpr h hrun.2)

variable {a : Anchors ℝ} {o : RoutingOptions ℝ}

/-- Where both anchors are on one vertical line, the first corner of the lane is left of it. -/
theorem mem_simplify_lanePoints (hlane : 1 / 10 ^ 5 ≤ o.laneOffset) (hx : a.source.x = a.target.x) :
    (⟨laneX a o, a.source.y⟩ : Point ℝ) ∈ simplify (lanePoints a o) := by
  have halong : (laneX a o - a.source.x) * (laneX a o - laneX a o) +
      (a.source.y - a.source.y) * (a.target.y - a.source.y) ≤ 0 := by
    rw [sub_self, sub_self, mul_zero, zero_mul, add_zero]
  have hback : (laneX a o - a.source.x) * (a.target.x - laneX a o) +
      (a.source.y - a.source.y) * (a.target.y - a.source.y) ≤ 0 := by
    have hsquare := mul_self_nonneg (laneX a o - a.source.x)
    rw [sub_self, zero_mul, add_zero, ← hx]
    linarith
  rw [lanePoints_real, simplify_leg (leg_heading (le_laneX o hlane)), List.mem_reverse, List.foldl_cons,
    List.foldl_cons, List.foldl_nil]
  rcases extendPolyline_turn a.source ⟨laneX a o, a.source.y⟩ ⟨laneX a o, a.target.y⟩ halong [] with heq | heq
  · rw [heq]
    rcases extendPolyline_turn a.source ⟨laneX a o, a.source.y⟩ a.target hback [] with heq | heq <;> simp [heq]
  · rw [heq]
    exact mem_extendPolyline_of_mem List.mem_cons_self a.target

/-! ## Beside the table -/

/-- The edge goes from the right edge of the table to the right edge of the table, and beside it in between. -/
structure Edge.LoopsBeside (r : Rect ℝ) (e : Edge ℝ) : Prop where
  source : r.HasOnSide .right e.anchors.source
  target : r.HasOnSide .right e.anchors.target
  beside : ∀ p ∈ pathPoints e.path, r.right ≤ p.x
  beyond : ∃ p ∈ pathPoints e.path, r.right < p.x

theorem beside_lane (hside : a.sourceSide = .right) (hlane : 1 / 10 ^ 5 < o.laneOffset) (hsource : a.source.x = x)
    (htarget : a.target.x = x) (radius : ℝ) :
    (∀ p ∈ pathPoints (rounded (lanePoints a o) radius), x ≤ p.x) ∧
      ∃ p ∈ pathPoints (rounded (lanePoints a o) radius), x < p.x := by
  have hlaneX : x < laneX a o := by
    have hout := le_laneX (a := a) o hlane.le
    rw [hside, Side.outward_right, mul_one, hsource] at hout
    have hpos : (0 : ℝ) < 1 / 10 ^ 5 := by positivity
    linarith
  refine ⟨le_x_of_mem_rounded ?_ radius, ?_⟩
  · rw [lanePoints_real]
    simp [hsource, htarget, hlaneX.le]
  · exact ⟨_, mem_pathPoints_rounded (mem_simplify_lanePoints hlane.le (hsource.trans htarget.symm)) radius, hlaneX⟩

theorem beside_path {style : RoutingStyle} {commands : List (PathCommand ℝ)} (h : path style a o = .ok commands)
    (hlooped : a.looped = true) (hsource : a.sourceSide = .right) (htarget : a.targetSide = .right)
    (hlane : 1 / 10 ^ 5 < o.laneOffset) (hstub : 1 / 10 ^ 5 < o.stub) (hsx : a.source.x = x) (htx : a.target.x = x) :
    (∀ p ∈ pathPoints commands, x ≤ p.x) ∧ ∃ p ∈ pathPoints commands, x < p.x := by
  cases style with
  | straight =>
      obtain rfl := Except.ok.inj h
      rw [straightPath, if_pos hlooped]
      exact beside_lane hsource hlane hsx htx _
  | orthogonal =>
      obtain rfl := Except.ok.inj h
      rw [orthogonalPath, orthogonalPoints_real, if_pos (hsource.trans htarget.symm)]
      exact beside_lane hsource hlane hsx htx o.cornerRadius
  | curved =>
      obtain ⟨reach, hreach, rfl⟩ := curvedPath_real o h
      have hpos : 0 < reach := by
        have hle := (Coordinate.bounds_of_clamp hreach).1
        have hstub' : (0 : ℝ) < 1 / 10 ^ 5 := by positivity
        linarith
      rw [hsource, htarget, hsx, htx, Side.outward_right]
      simp [pathPoints, PathCommand.points, hsx, htx, hpos, hpos.le]

theorem loopsBeside_of_between {style : RoutingStyle} {index : Nat} {kind : RelationKind} {source target : RowEnd ℝ}
    {r : Rect ℝ} {e : Edge ℝ} (h : Edge.between o style index kind source target true = .ok e)
    (hsource : source.rect = r) (htarget : target.rect = r) (hlane : 1 / 10 ^ 5 < o.laneOffset)
    (hstub : 1 / 10 ^ 5 < o.stub) : e.LoopsBeside r := by
  obtain ⟨a, ha, h⟩ := bind_eq_ok_iff.mp h
  obtain ⟨commands, hpath, rfl⟩ := map_eq_ok_iff.mp h
  obtain ⟨start, hstart, ha⟩ := bind_eq_ok_iff.mp ha
  obtain ⟨stop, hstop, rfl⟩ := map_eq_ok_iff.mp ha
  have hstart := RowEnd.hasOnSide_of_anchor hstart
  have hstop := RowEnd.hasOnSide_of_anchor hstop
  rw [hsource] at hstart
  rw [htarget] at hstop
  obtain ⟨hbeside, hbeyond⟩ := beside_path hpath rfl rfl rfl hlane hstub hstart.x_eq hstop.x_eq
  exact ⟨hstart, hstop, hbeside, hbeyond⟩

/-! ## The edges of a diagram -/

theorem Edge.scale_one (e : Edge ℝ) : e.scale 1 = e := by
  have hcommand (c : PathCommand ℝ) : c.map (fun p => p) = c := by cases c <;> rfl
  have hhead (h : ArrowHead ℝ) : h.scale 1 = h := by
    simp [ArrowHead.scale, Point.scale_one]
  obtain ⟨index, a, commands, heads⟩ := e
  simp only [scale, Point.scale_one, List.map_id'' hcommand, List.map_id'' hhead]

variable {m : Metrics ℝ} {tables : List (PlacedTable ℝ)}

theorem Endpoint.NamesField.exists_rowEnd {e : Endpoint} (h : e.NamesField tables) {t : PlacedTable ℝ}
    (ht : tables.find? (·.table.name = e.table) = some t) {size : Size ℝ} (hsize : t.effectiveSize m = .ok size) :
    ∃ row, rowEnd m tables e = .ok (some row) ∧ row.rect = ⟨t.position, size⟩ := by
  obtain ⟨t', ht', hfield⟩ := h
  obtain rfl := Option.some.inj (ht.symm.trans ht')
  obtain ⟨index, hindex⟩ : ∃ index, t.table.fieldIndex? e.field = some index :=
    Option.isSome_iff_exists.mp (by simpa [Table.fieldIndex?] using hfield)
  refine ⟨⟨⟨t.position, size⟩, m.rowCenter index⟩, ?_, rfl⟩
  simp only [rowEnd, ht, hindex]
  exact map_eq_ok_iff.mpr ⟨size, hsize, rfl⟩

/-- Between any two fields of one table an edge is drawn, and none of it is drawn inside the table. -/
theorem routeEdges_selfReference {o : RoutingOptions ℝ} (hlane : 1 / 10 ^ 5 < o.laneOffset)
    (hstub : 1 / 10 ^ 5 < o.stub) (style : RoutingStyle) {r : Relationship} (hfields : r.JoinsFields tables)
    (hself : r.target.table = r.source.table) {t : PlacedTable ℝ}
    (ht : tables.find? (·.table.name = r.source.table) = some t) {size : Size ℝ}
    (hsize : t.effectiveSize m = .ok size) (hheight : 0 ≤ size.height) :
    (∃ e, routeEdges m o style 1 tables [r] = .ok [e] ∧ e.LoopsBeside ⟨t.position, size⟩) ∧
    ∀ relationships edges, routeEdges m o style 1 tables relationships = .ok edges →
      ∀ e ∈ edges, relationships[e.relationship]? = some r → e.LoopsBeside ⟨t.position, size⟩ := by
  have ht' : tables.find? (·.table.name = r.target.table) = some t := by rwa [hself]
  obtain ⟨source, hsource, hsrect⟩ := hfields.1.exists_rowEnd ht hsize
  obtain ⟨target, htarget, htrect⟩ := hfields.2.exists_rowEnd ht' hsize
  have hloop : decide (r.source.table = r.target.table) = true := decide_eq_true hself.symm
  constructor
  · obtain ⟨e, he⟩ : ∃ e, Edge.between o style 0 r.kind source target true = .ok e :=
      (Edge.exists_between_iff o.reaches_real).mpr
        ⟨Coordinate.zero_real.le.trans (by rwa [hsrect]), Coordinate.zero_real.le.trans (by rwa [htrect])⟩
    have hedge : Edge.ofRelationship m o style tables 0 r = .ok (some e) :=
      bind_eq_ok_iff.mpr ⟨some source, hsource, bind_eq_ok_iff.mpr ⟨some target, htarget,
        map_eq_ok_iff.mpr ⟨e, by rwa [hloop], rfl⟩⟩⟩
    have hroute : routeEdges m o style 1 tables [r] = .ok [e] :=
      map_eq_ok_iff.mpr ⟨[e], bind_eq_ok_iff.mpr ⟨some e, hedge, rfl⟩, List.map_id'' Edge.scale_one [e]⟩
    exact ⟨e, hroute, loopsBeside_of_between he hsrect htrect hlane hstub⟩
  · intro relationships edges hroute e he hr
    obtain ⟨r', unscaled, hr', hrouted, rfl⟩ := (routeEdges_spec hroute).2.2 e he
    obtain rfl := Option.some.inj (hr'.symm.trans hr)
    rw [Edge.scale_one]
    obtain ⟨source', target', hsource', htarget', hbetween⟩ := ofRelationship_eq_some hrouted
    obtain rfl := Option.some.inj (Except.ok.inj (hsource'.symm.trans hsource))
    obtain rfl := Option.some.inj (Except.ok.inj (htarget'.symm.trans htarget))
    rw [hloop] at hbetween
    exact loopsBeside_of_between hbetween hsrect htrect hlane hstub

theorem routeEdges_selfReference_usersLoop :
    (1 / 10 ^ 5 : ℝ) < RoutingOptions.standard.laneOffset ∧ (1 / 10 ^ 5 : ℝ) < RoutingOptions.standard.stub ∧
      usersLoop.JoinsFields usersAndPosts ∧
      ∃ e, routeEdges Metrics.standard .standard .orthogonal 1 usersAndPosts [usersLoop] = .ok [e] ∧
        e.LoopsBeside ⟨⟨0, 0⟩, ⟨250, 100⟩⟩ := by
  have hlane : (1 / 10 ^ 5 : ℝ) < RoutingOptions.standard.laneOffset := by
    rw [RoutingOptions.laneOffset_standard]
    norm_num
  have hstub : (1 / 10 ^ 5 : ℝ) < RoutingOptions.standard.stub := by
    rw [RoutingOptions.stub_standard]
    norm_num
  have hfields : usersLoop.JoinsFields usersAndPosts :=
    ⟨⟨_, rfl, _, List.mem_cons_self, rfl⟩, ⟨_, rfl, _, List.mem_cons_self, rfl⟩⟩
  obtain ⟨hroute, -⟩ := routeEdges_selfReference (m := Metrics.standard) hlane hstub .orthogonal hfields rfl rfl
    (PlacedTable.effectiveSize_of_pos _ (by norm_num) (by norm_num)) (by norm_num)
  exact ⟨hlane, hstub, hfields, hroute⟩

end SchemaDiagram
