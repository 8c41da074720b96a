import SchemaDiagram.Proofs.Geometry.Real
import SchemaDiagram.Proofs.Routing.Edge
import SchemaDiagram.Proofs.Routing.Polyline

/-! # Edges at their tables

In real coordinates every relationship between two fields is drawn as one edge and no other relationship is. The
edge meets both tables beside their rows, its path leads from the one to the other, and its arrow heads touch the
tables that the relationship points at.
-/
namespace SchemaDiagram

/-! ## Which relationships are drawn -/

section Indices

variable {α : Type} [Coordinate α] {m : Metrics α} {o : RoutingOptions α} {style : RoutingStyle}
  {tables : List (PlacedTable α)}

/-- The endpoint names a table, and a field of the first table of that name. -/
def Endpoint.NamesField (tables : List (PlacedTable α)) (e : Endpoint) : Prop :=
  ∃ t, tables.find? (·.table.name = e.table) = some t ∧ ∃ f ∈ t.table.fields, f.name = e.field

def Relationship.JoinsFields (tables : List (PlacedTable α)) (r : Relationship) : Prop :=
  r.source.NamesField tables ∧ r.target.NamesField tables

/-- The row of an endpoint: in the first table of its name, at the place where the table is drawn. -/
theorem rowEnd_eq_some {e : Endpoint} {row : RowEnd α} (h : rowEnd m tables e = .ok (some row)) :
    ∃ t size, tables.find? (·.table.name = e.table) = some t ∧ t.effectiveSize m = .ok size ∧
      row.rect = ⟨t.position, size⟩ := by
  rw [rowEnd] at h
  split at h
  · cases h
  · next t ht =>
      split at h
      · cases h
      · obtain ⟨size, hsize, hrow⟩ := map_eq_ok_iff.mp h
        obtain rfl := Option.some.inj hrow
        exact ⟨t, size, ht, hsize, rfl⟩

theorem isSome_rowEnd_iff {e : Endpoint} {row : Option (RowEnd α)} (h : rowEnd m tables e = .ok row) :
    row.isSome = true ↔ e.NamesField tables := by
  have hindex : ∀ t : Table, (t.fieldIndex? e.field).isSome = true ↔ ∃ f ∈ t.fields, f.name = e.field := by
    intro t
    simp [Table.fieldIndex?]
  rw [rowEnd] at h
  rw [Endpoint.NamesField]
  split at h
  · next hnone =>
      obtain rfl := Except.ok.inj h
      simp [hnone]
  · next t ht =>
      simp only [ht, Option.some.injEq, exists_eq_left', ← hindex]
      split at h
      · next hfield =>
          obtain rfl := Except.ok.inj h
          simp [hfield]
      · next index hfield =>
          obtain ⟨size, -, rfl⟩ := map_eq_ok_iff.mp h
          simp [hfield]

/-- What the edge of a relationship is made of. -/
theorem ofRelationship_eq_some {index : Nat} {r : Relationship} {e : Edge α}
    (h : Edge.ofRelationship m o style tables index r = .ok (some e)) :
    ∃ source target, rowEnd m tables r.source = .ok (some source) ∧ rowEnd m tables r.target = .ok (some target) ∧
      Edge.between o style index r.kind source target (r.source.table = r.target.table) = .ok e := by
  obtain ⟨source, hsource, h⟩ := bind_eq_ok_iff.mp h
  cases source with
  | none => cases h
  | some source =>
      obtain ⟨target, htarget, h⟩ := bind_eq_ok_iff.mp h
      cases target with
      | none => cases h
      | some target =>
          obtain ⟨e', hbetween, he⟩ := map_eq_ok_iff.mp h
          obtain rfl := Option.some.inj he
          exact ⟨source, target, hsource, htarget, hbetween⟩

theorem isSome_ofRelationship_iff {index : Nat} {r : Relationship} {e : Option (Edge α)}
    (h : Edge.ofRelationship m o style tables index r = .ok e) : e.isSome = true ↔ r.JoinsFields tables := by
  obtain ⟨source, hsource, h⟩ := bind_eq_ok_iff.mp h
  rw [Relationship.JoinsFields, ← isSome_rowEnd_iff hsource]
  cases source with
  | none =>
      obtain rfl := Except.ok.inj h
      simp
  | some source =>
      obtain ⟨target, htarget, h⟩ := bind_eq_ok_iff.mp h
      rw [← isSome_rowEnd_iff htarget]
      cases target with
      | none =>
          obtain rfl := Except.ok.inj h
          simp
      | some target =>
          obtain ⟨e', -, rfl⟩ := map_eq_ok_iff.mp h
          simp

theorem relationship_of_between {index : Nat} {kind : RelationKind} {source target : RowEnd α} {looped : Bool}
    {e : Edge α} (h : Edge.between o style index kind source target looped = .ok e) : e.relationship = index := by
  obtain ⟨a, -, h⟩ := bind_eq_ok_iff.mp h
  obtain ⟨commands, -, rfl⟩ := map_eq_ok_iff.mp h
  rfl

/-- The edges stand in the order of their relationships, one for each relationship between two fields. -/
theorem edgesFrom_spec {start : Nat} {relationships : List Relationship} {edges : List (Edge α)}
    (h : edgesFrom m o style tables start relationships = .ok edges) :
    (edges.map Edge.relationship).Pairwise (· < ·) ∧
    (∀ i, i ∈ edges.map Edge.relationship ↔
      start ≤ i ∧ ∃ r, relationships[i - start]? = some r ∧ r.JoinsFields tables) ∧
    ∀ e ∈ edges, ∃ r, relationships[e.relationship - start]? = some r ∧
      Edge.ofRelationship m o style tables e.relationship r = .ok (some e) := by
  induction relationships generalizing start edges with
  | nil =>
      obtain rfl := Except.ok.inj h
      simp
  | cons r rest ih =>
      obtain ⟨first, hfirst, h⟩ := bind_eq_ok_iff.mp h
      obtain ⟨more, hmore, rfl⟩ := map_eq_ok_iff.mp h
      obtain ⟨hordered, hmem, hedge⟩ := ih hmore
      have hjoins := isSome_ofRelationship_iff hfirst
      have hnumber : ∀ e, first = some e → e.relationship = start := by
        rintro e rfl
        obtain ⟨_, _, -, -, hbetween⟩ := ofRelationship_eq_some hfirst
        exact relationship_of_between hbetween
      have hlater : ∀ i, start + 1 ≤ i → (r :: rest)[i - start]? = rest[i - (start + 1)]? := by
        intro i hi
        rw [show i - start = i - (start + 1) + 1 by omega, List.getElem?_cons_succ]
      refine ⟨?_, fun i => ?_, fun e he => ?_⟩
      · rw [List.map_append, List.pairwise_append]
        refine ⟨by cases first <;> simp, hordered, fun a ha b hb => ?_⟩
        obtain ⟨e, he, rfl⟩ := List.mem_map.mp ha
        rw [hnumber e (Option.mem_toList.mp he)]
        exact ((hmem b).mp hb).1
      · rw [List.map_append, List.mem_append, hmem]
        constructor
        · rintro (hi | ⟨hle, r', hr', hfields⟩)
          · obtain ⟨e, he, rfl⟩ := List.mem_map.mp hi
            have he := Option.mem_toList.mp he
            rw [hnumber e he, Nat.sub_self]
            exact ⟨Nat.le_refl start, r, rfl, hjoins.mp (by rw [he]; rfl)⟩
          · exact ⟨by omega, r', by rwa [hlater i hle], hfields⟩
        · rintro ⟨hle, r', hr', hfields⟩
          rcases Nat.eq_or_lt_of_le hle with rfl | hlt
          · rw [Nat.sub_self] at hr'
            obtain rfl := Option.some.inj hr'
            obtain ⟨e, rfl⟩ := Option.isSome_iff_exists.mp (hjoins.mpr hfields)
            exact .inl (by simp [hnumber e rfl])
          · exact .inr ⟨hlt, r', by rwa [← hlater i hlt], hfields⟩
      · rcases List.mem_append.mp he with he | he
        · have he := Option.mem_toList.mp he
          subst he
          rw [hnumber e rfl, Nat.sub_self]
          exact ⟨r, rfl, hfirst⟩
        · have hle := ((hmem _).mp (List.mem_map_of_mem he)).1
          rw [hlater _ hle]
          exact hedge e he

/-- The same of the scaled edges. -/
theorem routeEdges_spec {factor : α} {relationships : List Relationship} {edges : List (Edge α)}
    (h : routeEdges m o style factor tables relationships = .ok edges) :
    (edges.map Edge.relationship).Pairwise (· < ·) ∧
    (∀ i, i ∈ edges.map Edge.relationship ↔ ∃ r, relationships[i]? = some r ∧ r.JoinsFields tables) ∧
    ∀ e ∈ edges, ∃ r unscaled, relationships[e.relationship]? = some r ∧
      Edge.ofRelationship m o style tables e.relationship r = .ok (some unscaled) ∧ e = unscaled.scale factor := by
  obtain ⟨unscaled, hedges, rfl⟩ := map_eq_ok_iff.mp h
  obtain ⟨hordered, hmem, hedge⟩ := edgesFrom_spec hedges
  have hindices : (unscaled.map (·.scale factor)).map Edge.relationship = unscaled.map Edge.relationship := by
    rw [List.map_map]
    rfl
  rw [hindices]
  refine ⟨hordered, fun i => ?_, fun e he => ?_⟩
  · rw [hmem]
    simp
  · obtain ⟨e, hfrom, rfl⟩ := List.mem_map.mp he
    obtain ⟨r, hr, hrouted⟩ := hedge e hfrom
    exact ⟨r, e, hr, hrouted, rfl⟩

end Indices

/-! ## Where an edge meets its tables -/

/-- The point is on the left or the right edge of the rectangle, between its top and its bottom. -/
structure Rect.HasOnSide (r : Rect ℝ) (side : Side) (p : Point ℝ) : Prop where
  x_eq : p.x = match side with
    | .left => r.origin.x
    | .right => r.origin.x + r.size.width
  top_le : r.origin.y ≤ p.y
  le_bottom : p.y ≤ r.origin.y + r.size.height

theorem RowEnd.hasOnSide_of_anchor {e : RowEnd ℝ} {side : Side} {p : Point ℝ} (h : e.anchor side = .ok p) :
    e.rect.HasOnSide side p := by
  obtain ⟨offset, hoffset, rfl⟩ := map_eq_ok_iff.mp h
  obtain ⟨hlow, hhigh⟩ := Coordinate.bounds_of_clamp hoffset
  rw [Coordinate.zero_real] at hlow
  exact ⟨by cases side <;> rfl, le_add_of_nonneg_right hlow, add_le_add_right hhigh e.rect.origin.y⟩

variable {m : Metrics ℝ} {o : RoutingOptions ℝ} {style : RoutingStyle} {tables : List (PlacedTable ℝ)}

/-- The point is on a side of the first table that the endpoint names, as it is drawn. -/
def Endpoint.Touches (m : Metrics ℝ) (tables : List (PlacedTable ℝ)) (e : Endpoint) (side : Side) (p : Point ℝ) :
    Prop :=
  ∃ t size, tables.find? (·.table.name = e.table) = some t ∧ t.effectiveSize m = .ok size ∧
    Rect.HasOnSide ⟨t.position, size⟩ side p

/-- The edge is fixed to the tables of the relationship at both ends. -/
structure Edge.Attached (m : Metrics ℝ) (tables : List (PlacedTable ℝ)) (r : Relationship) (e : Edge ℝ) : Prop where
  source : r.source.Touches m tables e.anchors.sourceSide e.anchors.source
  target : r.target.Touches m tables e.anchors.targetSide e.anchors.target
  start : e.path.head? = some (.moveTo e.anchors.source)
  stop : ∃ c, e.path.getLast? = some c ∧ c.stop.distance e.anchors.target < 1 / 10 ^ 6
  tips : e.arrowHeads.map ArrowHead.tip =
    (if r.kind.pointsAtFrom then [e.anchors.source] else []) ++ if r.kind.pointsAtTo then [e.anchors.target] else []

theorem Endpoint.touches_of_anchor {e : Endpoint} {row : RowEnd ℝ} (hrow : rowEnd m tables e = .ok (some row))
    {side : Side} {p : Point ℝ} (h : row.anchor side = .ok p) : e.Touches m tables side p := by
  obtain ⟨t, size, ht, hsize, hrect⟩ := rowEnd_eq_some hrow
  exact ⟨t, size, ht, hsize, hrect ▸ RowEnd.hasOnSide_of_anchor h⟩

theorem ArrowHead.tips_ofPath (kind : RelationKind) (commands : List (PathCommand ℝ)) (a : Anchors ℝ)
    (o : RoutingOptions ℝ) : (ofPath kind commands a o).map tip =
      (if kind.pointsAtFrom then [a.source] else []) ++ if kind.pointsAtTo then [a.target] else [] := by
  cases kind <;> rfl

theorem Point.Near.distance_lt {p q : Point ℝ} (h : p.Near q) : p.distance q < 1 / 10 ^ 6 := by
  rw [← tolerance_real]
  rcases h with rfl | h
  · rw [distance_self]
    exact tolerance_pos
  · exact h

theorem Edge.attached_of_ofRelationship {index : Nat} {r : Relationship} {e : Edge ℝ}
    (h : ofRelationship m o style tables index r = .ok (some e)) : e.Attached m tables r := by
  obtain ⟨source, target, hsource, htarget, h⟩ := ofRelationship_eq_some h
  obtain ⟨a, ha, h⟩ := bind_eq_ok_iff.mp h
  obtain ⟨commands, hpath, rfl⟩ := map_eq_ok_iff.mp h
  obtain ⟨start, hstart, ha⟩ := bind_eq_ok_iff.mp ha
  obtain ⟨stop, hstop, rfl⟩ := map_eq_ok_iff.mp ha
  obtain ⟨hfirst, c, hlast, hnear⟩ := joins_of_path hpath
  exact ⟨Endpoint.touches_of_anchor hsource hstart, Endpoint.touches_of_anchor htarget hstop, hfirst,
    ⟨c, hlast, hnear.distance_lt⟩, ArrowHead.tips_ofPath r.kind commands _ o⟩

/-! ## Scaling -/

theorem PathCommand.map_scale_scale {s : ℝ} (hs : s ≠ 0) (c : PathCommand ℝ) :
    (c.map (·.scale s)).map (·.scale s⁻¹) = c := by
  cases c <;> simp [PathCommand.map, Point.scale_scale hs]

theorem ArrowHead.scale_scale {s : ℝ} (hs : s ≠ 0) (h : ArrowHead ℝ) : (h.scale s).scale s⁻¹ = h := by
  simp [ArrowHead.scale, Point.scale_scale hs]

theorem Edge.scale_scale {s : ℝ} (hs : s ≠ 0) (e : Edge ℝ) : (e.scale s).scale s⁻¹ = e := by
  have hpath : ∀ commands : List (PathCommand ℝ),
      (commands.map (·.map (·.scale s))).map (·.map (·.scale s⁻¹)) = commands := by
    intro commands
    rw [List.map_map]
    exact List.map_id'' (PathCommand.map_scale_scale hs) commands
  have hheads : ∀ heads : List (ArrowHead ℝ), (heads.map (·.scale s)).map (·.scale s⁻¹) = heads := by
    intro heads
    rw [List.map_map]
    exact List.map_id'' (ArrowHead.scale_scale hs) heads
  obtain ⟨index, a, commands, heads⟩ := e
  simp only [Edge.scale, hpath, hheads, Point.scale_scale hs]

/-! ## Edges between tables that are upright -/

theorem Metrics.exists_tableSize_real (m : Metrics ℝ) (t : Table) : ∃ size, m.tableSize t = .ok size := by
  obtain ⟨width, hwidth⟩ :=
    Coordinate.exists_clamp_real (Coordinate.le_larger_real m.maxWidth m.minWidth) (m.naturalWidth t)
  obtain ⟨height, hheight⟩ :=
    Coordinate.exists_clamp_real (Coordinate.le_larger_real m.maxHeight m.minHeight) (m.naturalHeight t)
  exact ⟨⟨width, height⟩, bind_eq_ok_iff.mpr ⟨width, hwidth, map_eq_ok_iff.mpr ⟨height, hheight, rfl⟩⟩⟩

theorem PlacedTable.exists_effectiveSize (m : Metrics ℝ) (t : PlacedTable ℝ) :
    ∃ size, t.effectiveSize m = .ok size := by
  rw [effectiveSize]
  split
  · exact m.exists_tableSize_real t.table
  · exact ⟨t.size, rfl⟩

theorem RoutingOptions.reaches_real (o : RoutingOptions ℝ) : o.Reaches := fun a =>
  Coordinate.exists_clamp_real (Coordinate.le_larger_real o.maxControlDistance o.stub)
    (a.source.distance a.target * o.curveFactor)

/-- A table that has a width and a height is drawn with them. -/
theorem PlacedTable.effectiveSize_of_pos (m : Metrics ℝ) {t : PlacedTable ℝ} (hwidth : 0 < t.size.width)
    (hheight : 0 < t.size.height) : t.effectiveSize m = .ok t.size := by
  rw [← Coordinate.zero_real] at hwidth hheight
  exact if_neg (by simp [Size.isEmpty, hwidth, hheight])

/-- No table is drawn with a negative height. -/
def Upright (m : Metrics ℝ) (tables : List (PlacedTable ℝ)) : Prop :=
  ∀ t ∈ tables, ∀ size, t.effectiveSize m = .ok size → 0 ≤ size.height

theorem Upright.drawable (h : Upright m tables) : Drawable m tables := by
  intro name t ht _
  obtain ⟨size, hsize⟩ := t.exists_effectiveSize m
  have hheight := h t (List.mem_of_find?_eq_some ht) size hsize
  exact ⟨size, hsize, Coordinate.zero_real.le.trans hheight⟩

theorem Upright.of_minHeight {m : Metrics ℝ} (h : 0 ≤ m.minHeight) (tables : List (PlacedTable ℝ)) :
    Upright m tables := by
  intro t _ size hsize
  rw [PlacedTable.effectiveSize] at hsize
  split at hsize
  · obtain ⟨width, -, hsize⟩ := bind_eq_ok_iff.mp hsize
    obtain ⟨height, hheight, rfl⟩ := map_eq_ok_iff.mp hsize
    exact h.trans (Coordinate.bounds_of_clamp hheight).1
  · next hempty =>
      obtain rfl := Except.ok.inj hsize
      have hpos : ¬t.size.height ≤ @OfNat.ofNat ℝ 0 (Coordinate.instOfNat 0) :=
        fun hle => hempty (by simp [Size.isEmpty, hle])
      rw [Coordinate.zero_real] at hpos
      exact (not_le.mp hpos).le

/-- Every relationship between two fields is drawn as one edge, in the order of the relationships, and no other
one is. At scale one the edge is fixed to the tables at both of its ends. -/
theorem routeEdges_attached (m : Metrics ℝ) (o : RoutingOptions ℝ) (style : RoutingStyle) {s : ℝ} (hs : 0 < s)
    {tables : List (PlacedTable ℝ)} (h : Upright m tables) (relationships : List Relationship) :
    ∃ edges, routeEdges m o style s tables relationships = .ok edges ∧
      (edges.map Edge.relationship).Pairwise (· < ·) ∧
      (∀ i, i ∈ edges.map Edge.relationship ↔ ∃ r, relationships[i]? = some r ∧ r.JoinsFields tables) ∧
      ∀ e ∈ edges, ∃ r, relationships[e.relationship]? = some r ∧ (e.scale s⁻¹).Attached m tables r := by
  obtain ⟨edges, hroute⟩ := h.drawable.exists_routeEdges o.reaches_real style s relationships
  obtain ⟨unscaled, hedges, rfl⟩ := map_eq_ok_iff.mp hroute
  obtain ⟨hordered, hiff, hedge⟩ := edgesFrom_spec hedges
  have hindices : (unscaled.map (·.scale s)).map Edge.relationship = unscaled.map Edge.relationship := by
    rw [List.map_map]
    rfl
  refine ⟨_, hroute, ?_, fun i => ?_, fun e he => ?_⟩
  · rwa [hindices]
  · rw [hindices, hiff]
    simp
  · obtain ⟨e, hmem, rfl⟩ := List.mem_map.mp he
    obtain ⟨r, hr, hrouted⟩ := hedge e hmem
    rw [Edge.scale_scale hs.ne']
    exact ⟨r, hr, Edge.attached_of_ofRelationship hrouted⟩

/-- A table with a size of its own, and one that is measured. -/
noncomputable def usersAndPosts : List (PlacedTable ℝ) :=
  [⟨{ name := "users".toList, fields := [⟨"id".toList, "int".toList, true, false, false, false, none, none⟩] },
      ⟨0, 0⟩, ⟨250, 100⟩⟩,
    ⟨{ name := "posts".toList, fields := [⟨"user_id".toList, "int".toList, false, false, false, false, none, none⟩] },
      ⟨400, 0⟩, ⟨0, 0⟩⟩]

def usersLoop : Relationship :=
  { source := ⟨"users".toList, "id".toList⟩, kind := .manyToMany, target := ⟨"users".toList, "id".toList⟩ }

/-- Between two tables, to a table that is not there, and from a field to itself. -/
def postRelationships : List Relationship :=
  [{ source := ⟨"posts".toList, "user_id".toList⟩, kind := .forward, target := ⟨"users".toList, "id".toList⟩ },
    { source := ⟨"posts".toList, "user_id".toList⟩, kind := .forward, target := ⟨"ghosts".toList, "id".toList⟩ },
    usersLoop]

theorem routeEdges_attached_postRelationships :
    (0 : ℝ) < 2 ∧ Upright Metrics.standard usersAndPosts ∧
      ∃ edges, routeEdges Metrics.standard .standard .orthogonal 2 usersAndPosts postRelationships = .ok edges ∧
        (∃ e ∈ edges, e.relationship = 2) ∧
        ∀ e ∈ edges, ∃ r, postRelationships[e.relationship]? = some r ∧
          (e.scale 2⁻¹).Attached Metrics.standard usersAndPosts r := by
  have hscale : (0 : ℝ) < 2 := by norm_num
  have hupright : Upright Metrics.standard usersAndPosts := Upright.of_minHeight (Nat.cast_nonneg 60) _
  obtain ⟨edges, hroute, -, hmem, hattached⟩ :=
    routeEdges_attached Metrics.standard .standard .orthogonal hscale hupright postRelationships
  have hloop : usersLoop.JoinsFields usersAndPosts :=
    ⟨⟨_, rfl, _, List.mem_cons_self, rfl⟩, ⟨_, rfl, _, List.mem_cons_self, rfl⟩⟩
  obtain ⟨e, he, hindex⟩ := List.mem_map.mp ((hmem 2).mpr ⟨_, rfl, hloop⟩)
  exact ⟨hscale, hupright, edges, hroute, ⟨e, he, hindex⟩, hattached⟩

end SchemaDiagram
