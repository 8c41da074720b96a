import SchemaDiagram.Proofs.Layout.Margin
import SchemaDiagram.Proofs.Picture.View
import SchemaDiagram.Proofs.Routing.Room
import SchemaDiagram.Proofs.Session.Completion
import SchemaDiagram.Proofs.Session.Frame
import SchemaDiagram.Proofs.Session.Overlap

/-! # What of a diagram is in its picture

Whatever an editor does, nothing of its diagram is cut off at the right or at the bottom of the picture. Tables that
are placed leave room at the left and at the top as well. A table that is dragged over the left or the upper edge is
cut off there, with the edges that end at it, and the picture does not move along.
-/
namespace SchemaDiagram

/-! ## Places by hand -/

/-- Where tables were put by hand since all of them were last placed anew. -/
def Operation.handPlaces {α : Type} (before : List (Point α)) : Operation α → List (Point α)
  | .move _ position => before ++ [position]
  | .arrange => []
  | .update _ | .setStyle _ | .setScale _ => before

/-- The same after a run of operations. -/
def handPlaces {α : Type} (operations : List (Operation α)) : List (Point α) :=
  operations.foldl Operation.handPlaces []

theorem handPlaces_concat {α : Type} (operations : List (Operation α)) (operation : Operation α) :
    handPlaces (operations ++ [operation]) = operation.handPlaces (handPlaces operations) := by
  rw [handPlaces, List.foldl_append]
  rfl

/-! ## Runs in exact coordinates -/

theorem Metrics.measures_exact (m : Metrics ℚ) : m.Measures := m.exists_tableSize

theorem Metrics.upright_exact {m : Metrics ℚ} (h : 0 ≤ m.minHeight) : m.Upright :=
  fun _ _ _ hsize => h.trans (le_tableSize hsize).2

theorem RoutingOptions.reaches_exact (o : RoutingOptions ℚ) : o.Reaches := fun a =>
  Coordinate.exists_clamp (Coordinate.le_larger o.maxControlDistance o.stub)
    (a.source.distance a.target * o.curveFactor)

namespace Diagram

theorem run_concat {α : Type} [Coordinate α] (d : Diagram α) (operations : List (Operation α))
    (operation : Operation α) : d.run (operations ++ [operation]) = (d.run operations).step operation := by
  rw [run, List.foldl_append]
  rfl

variable {d d' : Diagram ℚ} {o : Options ℚ} {text : Text} {corner : Point ℚ}

theorem Coherent.apply_ne_emptyRange_exact (h : d.Coherent o text) (hheight : 0 ≤ o.metrics.minHeight)
    (operation : Operation ℚ) : d.apply operation ≠ .error .emptyRange :=
  h.apply_ne_emptyRange o.metrics.measures_exact (Metrics.upright_exact hheight) o.routing.reaches_exact operation

theorem Coherent.run_exact (h : d.Coherent o text) (hheight : 0 ≤ o.metrics.minHeight)
    (operations : List (Operation ℚ)) : (d.run operations).Coherent o (lastText text operations) :=
  h.run (h.completes o.metrics.measures_exact (Metrics.upright_exact hheight) o.routing.reaches_exact operations)

/-- All that can happen to a layout. -/
theorem layout_apply_cases {operation : Operation ℚ} (h : d.apply operation = .ok d') :
    (∃ next, operation = .update next ∧
      layoutTables d.options.metrics d.options.layout (Schema.ofText next).tables
        (d.snapshot.layout.retain fun name => (Schema.ofText next).tables.any (·.name = name)) =
          .ok d'.snapshot.layout) ∨
    (∃ name position, operation = .move name position ∧
      d'.snapshot.layout = d.snapshot.layout.move name position) ∨
    (operation = .arrange ∧
      autoLayout d.options.metrics d.options.layout d.snapshot.schema.tables d.snapshot.schema.relationships =
        .ok d'.snapshot.layout) ∨
    ((∃ style, operation = .setStyle style) ∨ ∃ scale, operation = .setScale scale) ∧
      d'.snapshot.layout = d.snapshot.layout := by
  cases operation with
  | update next => exact .inl ⟨next, rfl, exists_layout_of_update h⟩
  | move name position =>
      simp only [Diagram.apply, Diagram.moveTable] at h
      split at h
      · exact .inr (.inl ⟨name, position, rfl, layout_of_reroute h⟩)
      · cases h
  | setStyle name =>
      simp only [Diagram.apply] at h
      split at h
      · have hl := layout_of_reroute h
        exact .inr (.inr (.inr ⟨.inl ⟨name, rfl⟩, hl⟩))
      · cases h
  | setScale scale =>
      obtain ⟨_, -, hr⟩ := bind_eq_ok_iff.mp h
      have hl := layout_of_reroute hr
      exact .inr (.inr (.inr ⟨.inr ⟨scale, rfl⟩, hl⟩))
  | arrange =>
      obtain ⟨l, hl, hr⟩ := bind_eq_ok_iff.mp h
      obtain rfl : d'.snapshot.layout = l := layout_of_reroute hr
      exact .inr (.inr (.inl ⟨rfl, Failure.ofGeometry_eq_ok_iff.mp hl⟩))

theorem Coherent.standsBeyond_step (h : d.Coherent o text) (hheight : 0 ≤ o.metrics.minHeight)
    (hmargin : corner.Beyond ⟨o.layout.margin, o.layout.margin⟩) {places : List (Point ℚ)}
    (hd : (∀ p ∈ places, corner.Beyond p) → d.snapshot.layout.StandsBeyond corner) (operation : Operation ℚ)
    (hplaces : ∀ p ∈ operation.handPlaces places, corner.Beyond p) :
    (d.step operation).snapshot.layout.StandsBeyond corner := by
  rw [Diagram.step]
  split
  · next next hnext =>
      rcases layout_apply_cases hnext with ⟨text, rfl, hl⟩ | ⟨name, position, rfl, hl⟩ | ⟨rfl, hl⟩ | ⟨hview, hl⟩
      · rw [h.options_eq] at hl
        exact layoutTables_standsBeyond hmargin hheight ((hd hplaces).retain _) hl
      · have hbefore := hd fun p hp => hplaces p (List.mem_append_left _ hp)
        rw [hl]
        exact hbefore.move name (hplaces position (List.mem_append_right _ List.mem_cons_self))
      · rw [h.options_eq] at hl
        exact autoLayout_standsBeyond hmargin hl
      · rw [hl]
        rcases hview with ⟨_, rfl⟩ | ⟨_, rfl⟩
        · exact hd hplaces
        · exact hd hplaces
  · next e he =>
      -- An arrangement does not fail, so that what fails leaves all places by hand as they are.
      cases operation with
      | move name position => exact hd fun p hp => hplaces p (List.mem_append_left _ hp)
      | arrange =>
          have hrefused : d.Refuses .arrange e :=
            (apply_eq_error_iff fun heq => h.apply_ne_emptyRange_exact hheight .arrange (heq ▸ he)).mp he
          exact hrefused.elim
      | update _ => exact hd hplaces
      | setStyle _ => exact hd hplaces
      | setScale _ => exact hd hplaces

/-- Where tables were not put over it by hand, all stand beyond the corner. -/
theorem standsBeyond_run (hscale : Failure.checkScale o.routing.scale = .ok ()) (hheight : 0 ≤ o.metrics.minHeight)
    (hmargin : corner.Beyond ⟨o.layout.margin, o.layout.margin⟩) {operations : List (Operation ℚ)}
    (hplaces : ∀ p ∈ handPlaces operations, corner.Beyond p) :
    ((new o).run operations).snapshot.layout.StandsBeyond corner := by
  -- From the end, because an arrangement forgets all places by hand before it.
  induction operations using List.reverseRecOn with
  | nil =>
      intro name p hp
      cases hp
  | append_singleton init operation ih =>
      have hcoherent := (coherent_new hscale).run_exact hheight init
      rw [handPlaces_concat] at hplaces
      rw [run_concat]
      exact hcoherent.standsBeyond_step hheight hmargin ih operation hplaces

end Diagram

/-! ## What is in the picture -/

/-- The boxes of the tables as they are drawn. -/
def Snapshot.tableRects (s : Snapshot ℚ) : List (Rect ℚ) :=
  s.tables.map fun t => Rect.scale ⟨t.position, t.size⟩ s.scale

/-- The ends of all pieces of the edges. -/
def Snapshot.stops (s : Snapshot ℚ) : List (Point ℚ) := s.edges.flatMap fun e => e.path.map PathCommand.stop

/-- All tables and all ends of pieces are inside the rectangle. -/
structure Snapshot.ShownIn (s : Snapshot ℚ) (view : Rect ℚ) : Prop where
  tables : ∀ r ∈ s.tableRects, r.Within view
  edges : ∀ p ∈ s.stops, view.Contains p

theorem Point.zero_beyond_iff {p : Point ℚ} : Point.zero.Beyond p ↔ 0 ≤ p.x ∧ 0 ≤ p.y :=
  ⟨fun h => ⟨h.left_le, h.top_le⟩, fun h => ⟨h.1, h.2⟩⟩

theorem Snapshot.shownIn_view_iff {s : Snapshot ℚ} {size : Size ℚ}
    (htables : ∀ r ∈ s.tableRects, r.right ≤ size.width ∧ r.bottom ≤ size.height)
    (hstops : ∀ p ∈ s.stops, p.x ≤ size.width ∧ p.y ≤ size.height) :
    s.ShownIn size.view ↔
      (∀ r ∈ s.tableRects, Point.zero.Beyond r.origin) ∧ ∀ p ∈ s.stops, Point.zero.Beyond p := by
  constructor
  · rintro ⟨hrects, hpoints⟩
    exact ⟨fun r hr => ⟨(hrects r hr).left_le, (hrects r hr).top_le⟩, fun p hp => (hpoints p hp).beyond⟩
  · rintro ⟨hrects, hpoints⟩
    refine ⟨fun r hr => ⟨(hrects r hr).left_le, (hrects r hr).top_le, ?_, ?_⟩, fun p hp => ⟨hpoints p hp, ?_, ?_⟩⟩
    · exact (htables r hr).1.trans size.right_view.ge
    · exact (htables r hr).2.trans size.bottom_view.ge
    · exact (hstops p hp).1.trans size.right_view.ge
    · exact (hstops p hp).2.trans size.bottom_view.ge

namespace Diagram

variable {d : Diagram ℚ} {o : Options ℚ} {text : Text}

theorem Settled.size_ge (h : d.Settled o text) {t : PlacedTable ℚ} (ht : t ∈ d.snapshot.tables) :
    o.metrics.minWidth ≤ t.size.width ∧ o.metrics.minHeight ≤ t.size.height := by
  obtain ⟨_, -, hsize⟩ := h.fits.size t.table.name _ (h.placed t ht)
  exact Metrics.le_tableSize hsize

theorem Settled.effectiveSize_eq (h : d.Settled o text) (hwidth : 0 < o.metrics.minWidth)
    (hheight : 0 < o.metrics.minHeight) {t : PlacedTable ℚ} (ht : t ∈ d.snapshot.tables) :
    t.effectiveSize o.metrics = .ok t.size := by
  obtain ⟨hw, hh⟩ := h.size_ge ht
  have hw' : ¬t.size.width ≤ 0 := not_le.mpr (hwidth.trans_le hw)
  have hh' : ¬t.size.height ≤ 0 := not_le.mpr (hheight.trans_le hh)
  have hempty : t.size.isEmpty = false := by
    rw [Size.isEmpty, Bool.or_eq_false_iff]
    exact ⟨decide_eq_false hw', decide_eq_false hh'⟩
  rw [PlacedTable.effectiveSize, hempty]
  rfl

theorem Settled.beyond_of_standsBeyond (h : d.Settled o text) {corner : Point ℚ}
    (hl : d.snapshot.layout.StandsBeyond corner) : ∀ t ∈ d.snapshot.tables, corner.Beyond t.position :=
  fun t ht => hl t.table.name _ (h.placed t ht)

/-- With room left of all tables, no coordinate is negative. -/
theorem Coherent.beyond_zero (h : d.Coherent o text) (ho : o.routing.Outward) (hwidth : 0 < o.metrics.minWidth)
    (hheight : 0 < o.metrics.minHeight)
    (hplaced : ∀ t ∈ d.snapshot.tables, (Point.zero.inset (o.routing.room d.snapshot.style)).Beyond t.position) :
    (∀ r ∈ d.snapshot.tableRects, Point.zero.Beyond r.origin) ∧ ∀ p ∈ d.snapshot.stops, Point.zero.Beyond p := by
  have hscale : 0 ≤ d.snapshot.scale := le_of_lt h.scale_ok.2
  have hzero : (Point.zero : Point ℚ).scale d.snapshot.scale = Point.zero := Point.ext (zero_mul _) (zero_mul _)
  constructor
  · intro r hr
    obtain ⟨t, ht, rfl⟩ := List.mem_map.mp hr
    have hposition := (Point.zero.beyond_inset (ho.room_nonneg d.snapshot.style)).trans (hplaced t ht)
    exact hzero ▸ hposition.scale hscale
  · intro p hp
    obtain ⟨e, he, hp⟩ := List.mem_flatMap.mp hp
    obtain ⟨c, hc, rfl⟩ := List.mem_map.mp hp
    have hstop := beyond_of_routeEdges h.edges_eq hscale ho hplaced (fun t ht size hsize => ?_) e he c hc
    · exact hzero ▸ hstop
    · obtain rfl := Except.ok.inj ((h.effectiveSize_eq hwidth hheight ht).symm.trans hsize)
      exact hwidth.le.trans (h.size_ge ht).1

theorem room_standard (style : RoutingStyle) :
    RoutingOptions.standard.room style = if style = .orthogonal then 30 else 0 := by
  cases style <;> rfl

/-- A table that is put into the quadrant with room left of it is beyond the origin with this room. -/
theorem beyond_inset_standard {style : RoutingStyle} {p : Point ℚ}
    (h : (if style = .orthogonal then 30 else 0) ≤ p.x ∧ 0 ≤ p.y) :
    (Point.zero.inset (RoutingOptions.standard.room style)).Beyond p := by
  rw [← room_standard] at h
  exact ⟨(zero_add _).trans_le h.1, h.2⟩

section

variable [Written ℚ]

/-- There is a picture, and nothing is cut off at its right or at its bottom. -/
theorem Settled.exists_picture (h : d.Settled o text) (hwidth : 0 < o.metrics.minWidth)
    (hheight : 0 < o.metrics.minHeight) :
    ∃ picture size, d.picture = .ok picture ∧ (viewTag size).opening <+: picture ∧
      (∀ r ∈ d.snapshot.tableRects, r.right ≤ size.width ∧ r.bottom ≤ size.height) ∧
      ∀ p ∈ d.snapshot.stops, p.x ≤ size.width ∧ p.y ≤ size.height := by
  have heffective : ∀ t ∈ d.snapshot.tables, t.effectiveSize o.metrics = .ok t.size :=
    fun t ht => h.effectiveSize_eq hwidth hheight ht
  obtain ⟨picture, hpicture⟩ : ∃ picture,
      draw o.metrics d.snapshot.tables d.snapshot.edges d.snapshot.scale = .ok picture :=
    exists_draw_iff.mpr fun t ht => ⟨t.size, heffective t ht⟩
  obtain ⟨size, hsize, hopening⟩ := opening_prefix_of_draw hpicture
  rw [← h.options_eq] at hpicture
  refine ⟨picture, size, Failure.ofGeometry_eq_ok_iff.mpr hpicture, hopening, fun r hr => ?_, fun p hp => ?_⟩
  · obtain ⟨t, ht, rfl⟩ := List.mem_map.mp hr
    exact corner_le_extent hsize ht (heffective t ht)
  · obtain ⟨e, he, hp⟩ := List.mem_flatMap.mp hp
    obtain ⟨c, hc, rfl⟩ := List.mem_map.mp hp
    exact point_le_extent hsize he (PathCommand.stop_mem_pathPoints hc)

/-- Whatever an editor does, its diagram has a picture, and of the tables and the ends of all pieces of the edges
nothing is cut off at the right or at the bottom. All is shown if and only if no coordinate is negative, and so it is
as long as tables are put by hand only where no coordinate is, in the orthogonal style with room for a lane. -/
theorem picture_view (operations : List (Operation ℚ)) :
    let d := (new .standard).run operations
    ∃ picture size, d.picture = .ok picture ∧ (viewTag size).opening <+: picture ∧
      (∀ r ∈ d.snapshot.tableRects, r.right ≤ size.width ∧ r.bottom ≤ size.height) ∧
      (∀ p ∈ d.snapshot.stops, p.x ≤ size.width ∧ p.y ≤ size.height) ∧
      (d.snapshot.ShownIn size.view ↔
        (∀ r ∈ d.snapshot.tableRects, 0 ≤ r.origin.x ∧ 0 ≤ r.origin.y) ∧ ∀ p ∈ d.snapshot.stops, 0 ≤ p.x ∧ 0 ≤ p.y) ∧
      ((∀ p ∈ handPlaces operations, (if d.snapshot.style = .orthogonal then 30 else 0) ≤ p.x ∧ 0 ≤ p.y) →
        d.snapshot.ShownIn size.view) := by
  intro d
  have hscale : Failure.checkScale (Options.standard : Options ℚ).routing.scale = .ok () := rfl
  have hwidth : 0 < (Options.standard : Options ℚ).metrics.minWidth := by decide +kernel
  have hheight : 0 < (Options.standard : Options ℚ).metrics.minHeight := by decide +kernel
  have houtward : (Options.standard : Options ℚ).routing.Outward := ⟨by decide +kernel, by decide +kernel⟩
  have hcoherent : d.Coherent .standard (lastText [] operations) :=
    (coherent_new hscale).run_exact hheight.le operations
  obtain ⟨picture, size, hpicture, hopening, htables, hstops⟩ := hcoherent.exists_picture hwidth hheight
  have hiff := Snapshot.shownIn_view_iff htables hstops
  refine ⟨picture, size, hpicture, hopening, htables, hstops, hiff.trans ?_, fun hplaces => ?_⟩
  · exact and_congr (forall₂_congr fun r _ => Point.zero_beyond_iff) (forall₂_congr fun p _ => Point.zero_beyond_iff)
  · have hmargin : (Point.zero.inset (RoutingOptions.standard.room d.snapshot.style)).Beyond ⟨40, 40⟩ :=
      beyond_inset_standard ⟨by split <;> norm_num, by norm_num⟩
    have hlayout := standsBeyond_run hscale hheight.le hmargin fun p hp => beyond_inset_standard (hplaces p hp)
    exact hiff.mpr (hcoherent.beyond_zero houtward hwidth hheight (hcoherent.beyond_of_standsBeyond hlayout))

end

/-- Exact numbers are written as fractions. -/
instance : Written ℚ := ⟨fun q => (toString q).toList⟩

/-- A table is dragged away and brought back, then a second one is dragged to where a lane just fits. -/
def draggedToEdge : List (Operation ℚ) :=
  [.setStyle "orthogonal".toList, .update "Table a \x7b\n id int\n\x7d".toList, .move "a".toList ⟨-5, -5⟩, .arrange,
    .update "Table a \x7b\n id int\n\x7d\nTable b \x7b\n id int\n\x7d\nRef: a.id > b.id".toList,
    .move "b".toList ⟨30, 300⟩, .setScale 2]

theorem picture_view_draggedToEdge :
    let d := (new .standard).run draggedToEdge
    (∀ p ∈ handPlaces draggedToEdge, (if d.snapshot.style = .orthogonal then 30 else 0) ≤ p.x ∧ 0 ≤ p.y) ∧
      d.snapshot.tables.length = 2 ∧ d.snapshot.edges.length = 1 ∧
      ∃ picture size, d.picture = .ok picture ∧ (viewTag size).opening <+: picture ∧ d.snapshot.ShownIn size.view := by
  intro d
  have hplaces : ∀ p ∈ handPlaces draggedToEdge,
      (if d.snapshot.style = .orthogonal then 30 else 0) ≤ p.x ∧ 0 ≤ p.y := by decide +kernel
  obtain ⟨picture, size, hpicture, hopening, -, -, -, hshown⟩ := picture_view draggedToEdge
  exact ⟨hplaces, by decide +kernel, by decide +kernel, picture, size, hpicture, hopening, hshown hplaces⟩

/-- A table that is dragged over both edges. -/
def draggedAway : List (Operation ℚ) :=
  [.update "Table a \x7b\n id int\n\x7d".toList, .move "a".toList ⟨-100, -100⟩]

/-- However numbers are written, a picture need not show a table that was dragged away. -/
theorem not_shownIn_draggedAway :
    ¬∃ _ : Written ℚ, ∀ operations : List (Operation ℚ), ∃ picture size,
      ((new .standard).run operations).picture = .ok picture ∧ (viewTag size).opening <+: picture ∧
      ((new .standard).run operations).snapshot.ShownIn size.view := by
  rintro ⟨_, h⟩
  obtain ⟨picture, size, -, -, hshown⟩ := h draggedAway
  have hrect : (⟨⟨-100, -100⟩, ⟨180, 60⟩⟩ : Rect ℚ) ∈ ((new .standard).run draggedAway).snapshot.tableRects := by
    decide +kernel
  have hleft : (0 : ℚ) ≤ -100 := (hshown.tables _ hrect).left_le
  norm_num at hleft

end Diagram
end SchemaDiagram
