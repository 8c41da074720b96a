import Mathlib.Data.List.Sort
import SchemaDiagram.Proofs.Routing.Attachment
import SchemaDiagram.Proofs.Routing.Waypoint

/-! # Relationships from the other end

A relationship written from its other end is drawn as the same picture: the edge has its anchors exchanged, the same
path is drawn from its other end, and the arrow heads are the same. Only tables with one center, and points of a path
that are next to each other without being the same, are treated by the end that comes first.
-/
namespace SchemaDiagram

/-- The same relationship written from its other end. -/
def Relationship.reversed (r : Relationship) : Relationship :=
  { r with source := r.target, kind := r.kind.reversed, target := r.source }

/-! ## Anchors -/

theorem Rect.center_real (r : Rect ℝ) :
    r.center = ⟨r.origin.x + r.size.width / 2, r.origin.y + r.size.height / 2⟩ := by
  rw [← Coordinate.two_real]
  rfl

theorem facingSides_real (r s : Rect ℝ) :
    facingSides r s =
      if |s.center.y - r.center.y| ≤ |s.center.x - r.center.x| then
        if 0 ≤ s.center.x - r.center.x then (.right, .left) else (.left, .right)
      else (.left, .left) := by
  rw [← Coordinate.magnitude_real, ← Coordinate.magnitude_real, ← Coordinate.zero_real]
  rfl

theorem facingSides_swap {r s : Rect ℝ} (h : r.center ≠ s.center) : facingSides s r = (facingSides r s).swap := by
  rw [facingSides_real, facingSides_real, abs_sub_comm r.center.y, abs_sub_comm r.center.x]
  split
  · next hwide =>
      have hapart : s.center.x - r.center.x ≠ 0 := by
        intro hx
        rw [hx, abs_zero, abs_nonpos_iff] at hwide
        exact h (Point.ext (sub_eq_zero.mp hx).symm (sub_eq_zero.mp hwide).symm)
      rcases hapart.lt_or_gt with hlt | hgt
      · rw [if_neg (not_le.mpr hlt), if_pos (by linarith)]
        rfl
      · rw [if_pos hgt.le, if_neg (by linarith)]
        rfl
  · rfl

variable {o : RoutingOptions ℝ} {style : RoutingStyle} {a : Anchors ℝ}

theorem chooseAnchors_swap {source target : RowEnd ℝ} {looped : Bool}
    (hcenters : looped = true ∨ source.rect.center ≠ target.rect.center)
    (h : chooseAnchors source target looped = .ok a) : chooseAnchors target source looped = .ok a.swap := by
  have hsides : (if looped then (Side.right, Side.right) else facingSides target.rect source.rect) =
      (if looped then (Side.right, Side.right) else facingSides source.rect target.rect).swap := by
    cases looped with
    | true => rfl
    | false => exact facingSides_swap (hcenters.resolve_left Bool.false_ne_true)
  rw [chooseAnchors] at h ⊢
  rw [hsides]
  obtain ⟨start, hstart, h⟩ := bind_eq_ok_iff.mp h
  obtain ⟨stop, hstop, rfl⟩ := map_eq_ok_iff.mp h
  exact bind_eq_ok_iff.mpr ⟨stop, hstop, map_eq_ok_iff.mpr ⟨start, hstart, rfl⟩⟩

/-- Both anchors of an edge from a table to itself are at one side. -/
theorem sourceSide_eq_of_looped {source target : RowEnd ℝ} {looped : Bool}
    (h : chooseAnchors source target looped = .ok a) (hlooped : a.looped = true) : a.sourceSide = a.targetSide := by
  obtain ⟨start, -, h⟩ := bind_eq_ok_iff.mp h
  obtain ⟨stop, -, rfl⟩ := map_eq_ok_iff.mp h
  obtain rfl : looped = true := hlooped
  rfl

/-! ## Paths -/

/-- The points along which a path with corners is drawn. -/
noncomputable def waypoints (style : RoutingStyle) (a : Anchors ℝ) (o : RoutingOptions ℝ) : List (Point ℝ) :=
  match style with
  | .straight => if a.looped then lanePoints a o else []
  | .curved => []
  | .orthogonal => orthogonalPoints a o

theorem controlReach_swap (a : Anchors ℝ) (o : RoutingOptions ℝ) : controlReach a.swap o = controlReach a o := by
  have hdistance : a.swap.source.distance a.swap.target = a.source.distance a.target := a.target.distance_comm a.source
  rw [controlReach, controlReach, hdistance]

theorem turnedBack_path {commands commands' : List (PathCommand ℝ)} (h : path style a o = .ok commands)
    (h' : path style a.swap o = .ok commands') (hloop : a.looped = true → a.sourceSide = a.targetSide)
    (hspaced : (waypoints style a o).IsChain Point.Spaced) : TurnedBack commands commands' := by
  cases style with
  | straight =>
      obtain rfl := Except.ok.inj h
      obtain rfl := Except.ok.inj h'
      have hlooped : a.swap.looped = a.looped := rfl
      rw [waypoints] at hspaced
      rw [straightPath, straightPath, hlooped]
      split at hspaced
      · next hself =>
          rw [if_pos hself, if_pos hself]
          exact turnedBack_lane o (hloop hself) hspaced _
      · next hself =>
          rw [if_neg hself, if_neg hself]
          exact ⟨rfl, rfl⟩
  | orthogonal =>
      obtain rfl := Except.ok.inj h
      obtain rfl := Except.ok.inj h'
      exact turnedBack_orthogonalPath o hspaced
  | curved =>
      obtain ⟨reach, hreach, rfl⟩ := curvedPath_real o h
      obtain ⟨reach', hreach', rfl⟩ := curvedPath_real o h'
      rw [controlReach_swap] at hreach'
      obtain rfl := Except.ok.inj (hreach'.symm.trans hreach)
      exact ⟨rfl, rfl⟩

/-! ## Arrow heads -/

theorem ArrowHead.ofPath_reversed {commands commands' : List (PathCommand ℝ)} (h : TurnedBack commands commands')
    (kind : RelationKind) (a : Anchors ℝ) (o : RoutingOptions ℝ) :
    ofPath kind.reversed commands' a.swap o = (ofPath kind commands a o).reverse := by
  have hend := endDirection?_eq h.points_eq
  have hend' := endDirection?_eq h.symm.points_eq
  rw [ofPath_real, ofPath_real, ← hend, hend', kind.pointsAtFrom_reversed, kind.pointsAtTo_reversed]
  cases kind.pointsAtFrom <;> cases kind.pointsAtTo <;> rfl

/-! ## Edges -/

/-- The second edge is drawn as the first one, from its other end. -/
structure Edge.SamePicture (e e' : Edge ℝ) : Prop where
  anchors_eq : e'.anchors = e.anchors.swap
  start : e'.path.head? = some (.moveTo e.anchors.target)
  pieces_eq : pieces e'.path = (pieces e.path).reverse.map Piece.reversed
  arrowHeads_eq : e'.arrowHeads = e.arrowHeads.reverse

theorem Edge.SamePicture.scale {e e' : Edge ℝ} (h : e.SamePicture e') (factor : ℝ) :
    (e.scale factor).SamePicture (e'.scale factor) where
  anchors_eq := by simp [Edge.scale, h.anchors_eq, Anchors.swap]
  start := by simp [Edge.scale, h.start, PathCommand.map]
  pieces_eq := by
    have hback (piece : Piece ℝ) :
        piece.reversed.map (·.scale factor) = (piece.map (·.scale factor)).reversed := piece.map_reversed _
    simp [Edge.scale, pieces_map, h.pieces_eq, Function.comp_def, hback]
  arrowHeads_eq := by simp [Edge.scale, h.arrowHeads_eq]

variable {m : Metrics ℝ} {tables : List (PlacedTable ℝ)}

/-- The tables of the relationship are one table or have different centers, and the points along which it is drawn
are the same or can be told from each other. -/
def Relationship.Unambiguous (m : Metrics ℝ) (o : RoutingOptions ℝ) (style : RoutingStyle)
    (tables : List (PlacedTable ℝ)) (r : Relationship) : Prop :=
  ∀ source target, rowEnd m tables r.source = .ok (some source) → rowEnd m tables r.target = .ok (some target) →
    (r.source.table = r.target.table ∨ source.rect.center ≠ target.rect.center) ∧
    ∀ a, chooseAnchors source target (r.source.table = r.target.table) = .ok a →
      (waypoints style a o).IsChain Point.Spaced

theorem samePicture_of_reversed {index : Nat} {r : Relationship} {e e' : Edge ℝ}
    (h : Edge.ofRelationship m o style tables index r = .ok (some e))
    (h' : Edge.ofRelationship m o style tables index r.reversed = .ok (some e'))
    (hr : r.Unambiguous m o style tables) : e.SamePicture e' := by
  obtain ⟨source, target, hsource, htarget, h⟩ := ofRelationship_eq_some h
  obtain ⟨target', source', htarget', hsource', h'⟩ := ofRelationship_eq_some h'
  obtain rfl := Option.some.inj (Except.ok.inj (hsource'.symm.trans hsource))
  obtain rfl := Option.some.inj (Except.ok.inj (htarget'.symm.trans htarget))
  obtain ⟨hcenters, hspaced⟩ := hr source' target' hsource htarget
  have hlooped : decide (r.reversed.source.table = r.reversed.target.table) =
      decide (r.source.table = r.target.table) := decide_eq_decide.mpr eq_comm
  rw [hlooped] at h'
  obtain ⟨a, ha, h⟩ := bind_eq_ok_iff.mp h
  obtain ⟨commands, hpath, rfl⟩ := map_eq_ok_iff.mp h
  obtain ⟨a', ha', h'⟩ := bind_eq_ok_iff.mp h'
  have hswap := chooseAnchors_swap (hcenters.imp_left fun heq => decide_eq_true heq) ha
  obtain rfl := Except.ok.inj (ha'.symm.trans hswap)
  obtain ⟨commands', hpath', rfl⟩ := map_eq_ok_iff.mp h'
  have hback := turnedBack_path hpath hpath' (sourceSide_eq_of_looped ha) (hspaced a ha)
  exact ⟨rfl, (joins_of_path hpath').start, hback.pieces_eq, ArrowHead.ofPath_reversed hback r.kind a o⟩

theorem Relationship.joinsFields_reversed {r : Relationship} :
    r.reversed.JoinsFields tables ↔ r.JoinsFields tables := and_comm

/-- Relationships written from their other ends are drawn as the same edges in the same order, each of them from its
other end. -/
theorem routeEdges_reversed (m : Metrics ℝ) (o : RoutingOptions ℝ) (style : RoutingStyle) (s : ℝ)
    (h : Upright m tables) (relationships : List Relationship) :
    ∃ edges edges', routeEdges m o style s tables relationships = .ok edges ∧
      routeEdges m o style s tables (relationships.map Relationship.reversed) = .ok edges' ∧
      edges'.map Edge.relationship = edges.map Edge.relationship ∧
      ∀ e ∈ edges, ∀ e' ∈ edges', e'.relationship = e.relationship →
        ∀ r, relationships[e.relationship]? = some r → r.Unambiguous m o style tables → e.SamePicture e' := by
  obtain ⟨edges, hroute⟩ := h.drawable.exists_routeEdges o.reaches_real style s relationships
  obtain ⟨edges', hroute'⟩ :=
    h.drawable.exists_routeEdges o.reaches_real style s (relationships.map Relationship.reversed)
  obtain ⟨hordered, hmem, hedge⟩ := routeEdges_spec hroute
  obtain ⟨hordered', hmem', hedge'⟩ := routeEdges_spec hroute'
  refine ⟨edges, edges', hroute, hroute', ?_, fun e he e' he' hindex r hr hunambiguous => ?_⟩
  · refine hordered'.eq_of_mem_iff hordered fun i => ?_
    rw [hmem', hmem]
    simp [Relationship.joinsFields_reversed]
  · obtain ⟨r₁, unscaled, hr₁, hrouted, rfl⟩ := hedge e he
    obtain ⟨r₂, unscaled', hr₂, hrouted', rfl⟩ := hedge' e' he'
    obtain rfl := Option.some.inj (hr₁.symm.trans hr)
    rw [hindex, List.getElem?_map, hr₁] at hr₂
    obtain rfl := Option.some.inj hr₂
    rw [hindex] at hrouted'
    exact (samePicture_of_reversed hrouted hrouted' hunambiguous).scale s

noncomputable def usersTable : PlacedTable ℝ :=
  ⟨{ name := "users".toList, fields := [⟨"id".toList, "int".toList, true, false, false, false, none, none⟩] },
    ⟨0, 0⟩, ⟨200, 100⟩⟩

noncomputable def postsTable : PlacedTable ℝ :=
  ⟨{ name := "posts".toList, fields := [⟨"user_id".toList, "int".toList, false, false, false, false, none, none⟩] },
    ⟨500, 300⟩, ⟨200, 100⟩⟩

/-- Two tables with room between their sides. -/
noncomputable def usersBesidePosts : List (PlacedTable ℝ) := [usersTable, postsTable]

def postsToUsers : Relationship :=
  { source := ⟨"posts".toList, "user_id".toList⟩, kind := .forward, target := ⟨"users".toList, "id".toList⟩ }

theorem facingSides_posts_users :
    facingSides (⟨⟨500, 300⟩, ⟨200, 100⟩⟩ : Rect ℝ) ⟨⟨0, 0⟩, ⟨200, 100⟩⟩ = (.left, .right) := by
  rw [facingSides_real]
  simp only [Rect.center_real]
  norm_num [abs_of_neg]

theorem unambiguous_postsToUsers :
    postsToUsers.Unambiguous Metrics.standard .standard .orthogonal usersBesidePosts := by
  intro source target hsource htarget
  have hwidth : (0 : ℝ) < 200 := by norm_num
  have hheight : (0 : ℝ) < 100 := by norm_num
  obtain ⟨t, size, ht, hsize, hsrect⟩ := rowEnd_eq_some hsource
  obtain rfl : postsTable = t := Option.some.inj ht
  obtain ⟨t', size', ht', hsize', htrect⟩ := rowEnd_eq_some htarget
  obtain rfl : usersTable = t' := Option.some.inj ht'
  rw [PlacedTable.effectiveSize_of_pos _ hwidth hheight] at hsize hsize'
  obtain rfl := Except.ok.inj hsize
  obtain rfl := Except.ok.inj hsize'
  have hsrect : source.rect = ⟨⟨500, 300⟩, ⟨200, 100⟩⟩ := hsrect
  have htrect : target.rect = ⟨⟨0, 0⟩, ⟨200, 100⟩⟩ := htrect
  refine ⟨.inr ?_, fun a ha => ?_⟩
  · rw [hsrect, htrect]
    simp only [Rect.center_real, ne_eq, Point.mk.injEq]
    norm_num
  · have hsides : facingSides source.rect target.rect = (.left, .right) := by
      rw [hsrect, htrect, facingSides_posts_users]
    rw [chooseAnchors, if_neg (by decide), hsides] at ha
    obtain ⟨start, hstart, ha⟩ := bind_eq_ok_iff.mp ha
    obtain ⟨stop, hstop, rfl⟩ := map_eq_ok_iff.mp ha
    have hstart := RowEnd.hasOnSide_of_anchor hstart
    have hstop := RowEnd.hasOnSide_of_anchor hstop
    rw [hsrect] at hstart
    rw [htrect] at hstop
    have hsx : start.x = 500 := hstart.x_eq
    have htx : stop.x = 0 + 200 := hstop.x_eq
    have hsy : 300 ≤ start.y := hstart.top_le
    have hty : stop.y ≤ 0 + 100 := hstop.le_bottom
    have hdown : 1 / 10 ^ 5 ≤ start.y - stop.y := le_trans (by norm_num) (sub_le_sub hsy hty)
    have hroom : 2 * RoutingOptions.standard.stub ≤ (stop.x - start.x) * Side.left.outward := by
      rw [RoutingOptions.stub_standard, hsx, htx, Side.outward_left]
      norm_num
    have hfacing : ¬Side.left = Side.right := by decide
    rw [waypoints, orthogonalPoints_real, if_neg hfacing, if_pos hroom]
    simp only [List.isChain_cons_cons, List.isChain_singleton, and_true]
    refine ⟨Point.spaced_of_x ?_, Point.spaced_of_y ?_, Point.spaced_of_x ?_⟩
    · rw [hsx, htx]
      norm_num
    · rw [abs_sub_comm]
      exact hdown.trans (le_abs_self _)
    · rw [hsx, htx]
      norm_num

theorem routeEdges_reversed_postsToUsers :
    Upright Metrics.standard usersBesidePosts ∧
      postsToUsers.Unambiguous Metrics.standard .standard .orthogonal usersBesidePosts ∧
      ∃ edges edges', routeEdges Metrics.standard .standard .orthogonal 2 usersBesidePosts [postsToUsers] = .ok edges ∧
        routeEdges Metrics.standard .standard .orthogonal 2 usersBesidePosts [postsToUsers.reversed] = .ok edges' ∧
        ∃ e ∈ edges, ∃ e' ∈ edges', e.SamePicture e' := by
  have hupright : Upright Metrics.standard usersBesidePosts := Upright.of_minHeight (Nat.cast_nonneg 60) _
  obtain ⟨edges, edges', hroute, hroute', hindices, hsame⟩ :=
    routeEdges_reversed Metrics.standard .standard .orthogonal 2 hupright [postsToUsers]
  have hfields : postsToUsers.JoinsFields usersBesidePosts :=
    ⟨⟨_, rfl, _, List.mem_cons_self, rfl⟩, ⟨_, rfl, _, List.mem_cons_self, rfl⟩⟩
  have hfirst : 0 ∈ edges.map Edge.relationship := ((routeEdges_spec hroute).2.1 0).mpr ⟨_, rfl, hfields⟩
  obtain ⟨e, he, hindex⟩ := List.mem_map.mp hfirst
  obtain ⟨e', he', hindex'⟩ := List.mem_map.mp (hindices ▸ hfirst)
  have hpicture := hsame e he e' he' (hindex'.trans hindex.symm) postsToUsers (by rw [hindex]; rfl)
    unambiguous_postsToUsers
  exact ⟨hupright, unambiguous_postsToUsers, edges, edges', hroute, hroute', e, he, e', he', hpicture⟩

end SchemaDiagram
