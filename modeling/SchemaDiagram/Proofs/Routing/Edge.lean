import SchemaDiagram.Routing.Edge
import SchemaDiagram.Proofs.Failure

/-! # Edges that can be drawn

An edge is drawn between two rows as soon as neither of their tables has a negative height and the reach of a
curve can be kept between its bounds. Nothing else about places, sizes and measures matters.
-/
namespace SchemaDiagram

variable {α : Type} [Coordinate α]

/-! ## Between two rows -/

theorem RowEnd.exists_anchor_iff {e : RowEnd α} {side : Side} :
    (∃ p, e.anchor side = .ok p) ↔ 0 ≤ e.rect.size.height := by
  constructor
  · rintro ⟨p, h⟩
    obtain ⟨offset, hoffset, -⟩ := bind_eq_ok_iff.mp h
    rw [Coordinate.clamp] at hoffset
    split at hoffset
    · next hle => exact hle
    · cases hoffset
  · intro h
    exact ⟨_, bind_eq_ok_iff.mpr ⟨_, if_pos h, rfl⟩⟩

theorem exists_chooseAnchors_iff {source target : RowEnd α} {looped : Bool} :
    (∃ a, chooseAnchors source target looped = .ok a) ↔
      0 ≤ source.rect.size.height ∧ 0 ≤ target.rect.size.height := by
  rw [chooseAnchors]
  rcases (if looped then (Side.right, Side.right) else facingSides source.rect target.rect) with ⟨first, last⟩
  have hsource : (∃ p, source.anchor first = .ok p) ↔ _ := RowEnd.exists_anchor_iff
  have htarget : (∃ p, target.anchor last = .ok p) ↔ _ := RowEnd.exists_anchor_iff
  rw [← hsource, ← htarget]
  constructor
  · rintro ⟨a, h⟩
    obtain ⟨start, hstart, h⟩ := bind_eq_ok_iff.mp h
    obtain ⟨stop, hstop, _⟩ := bind_eq_ok_iff.mp h
    exact ⟨⟨start, hstart⟩, ⟨stop, hstop⟩⟩
  · rintro ⟨⟨start, hstart⟩, ⟨stop, hstop⟩⟩
    exact ⟨_, bind_eq_ok_iff.mpr ⟨start, hstart, bind_eq_ok_iff.mpr ⟨stop, hstop, rfl⟩⟩⟩

/-- The reach of a curve has ordered bounds. -/
def RoutingOptions.Reaches (o : RoutingOptions α) : Prop := ∀ a, ∃ reach, controlReach a o = .ok reach

variable {m : Metrics α} {o : RoutingOptions α} {style : RoutingStyle}

theorem RoutingOptions.Reaches.exists_path (h : o.Reaches) (style : RoutingStyle) (a : Anchors α) :
    ∃ commands, path style a o = .ok commands := by
  cases style with
  | straight => exact ⟨_, rfl⟩
  | orthogonal => exact ⟨_, rfl⟩
  | curved =>
      obtain ⟨reach, hreach⟩ := h a
      exact ⟨_, bind_eq_ok_iff.mpr ⟨reach, hreach, rfl⟩⟩

theorem Edge.exists_between_iff (h : o.Reaches) {index : Nat} {kind : RelationKind} {source target : RowEnd α}
    {looped : Bool} : (∃ e, Edge.between o style index kind source target looped = .ok e) ↔
      0 ≤ source.rect.size.height ∧ 0 ≤ target.rect.size.height := by
  have hanchors : (∃ a, chooseAnchors source target looped = .ok a) ↔ _ := exists_chooseAnchors_iff
  rw [← hanchors]
  constructor
  · rintro ⟨e, he⟩
    obtain ⟨a, ha, _⟩ := bind_eq_ok_iff.mp he
    exact ⟨a, ha⟩
  · rintro ⟨a, ha⟩
    obtain ⟨commands, hpath⟩ := h.exists_path style a
    exact ⟨_, bind_eq_ok_iff.mpr ⟨a, ha, bind_eq_ok_iff.mpr ⟨commands, hpath, rfl⟩⟩⟩

/-! ## Between the tables of a diagram -/

/-- The tables that relationships can end at are drawn, and none of them with a negative height. -/
def Drawable (m : Metrics α) (tables : List (PlacedTable α)) : Prop :=
  ∀ name t, tables.find? (·.table.name = name) = some t → t.table.fields ≠ [] →
    ∃ size, t.effectiveSize m = .ok size ∧ 0 ≤ size.height

variable {tables : List (PlacedTable α)}

theorem Drawable.exists_rowEnd (h : Drawable m tables) (e : Endpoint) :
    ∃ row, rowEnd m tables e = .ok row ∧ ∀ r ∈ row, 0 ≤ r.rect.size.height := by
  rw [rowEnd]
  split
  · exact ⟨none, rfl, nofun⟩
  · next t ht =>
      split
      · exact ⟨none, rfl, nofun⟩
      · next index hindex =>
          have hfields : t.table.fields ≠ [] := by
            intro hnil
            simp [Table.fieldIndex?, hnil] at hindex
          obtain ⟨size, hsize, hheight⟩ := h e.table t ht hfields
          refine ⟨_, map_eq_ok_iff.mpr ⟨size, hsize, rfl⟩, ?_⟩
          rintro r ⟨⟩
          exact hheight

theorem Drawable.exists_ofRelationship (h : Drawable m tables) (ho : o.Reaches) (index : Nat) (r : Relationship) :
    ∃ e, Edge.ofRelationship m o style tables index r = .ok e := by
  obtain ⟨source, hsource, hs⟩ := h.exists_rowEnd r.source
  obtain ⟨target, htarget, ht⟩ := h.exists_rowEnd r.target
  rw [Edge.ofRelationship, hsource]
  cases source with
  | none => exact ⟨none, rfl⟩
  | some source =>
      simp only [htarget]
      cases target with
      | none => exact ⟨none, rfl⟩
      | some target =>
          obtain ⟨e, he⟩ := (Edge.exists_between_iff ho).mpr ⟨hs source rfl, ht target rfl⟩
          exact ⟨_, map_eq_ok_iff.mpr ⟨e, he, rfl⟩⟩

theorem Drawable.exists_routeEdges (h : Drawable m tables) (ho : o.Reaches) (style : RoutingStyle) (factor : α)
    (relationships : List Relationship) :
    ∃ edges, routeEdges m o style factor tables relationships = .ok edges := by
  have hedges : ∀ index, ∃ edges, edgesFrom m o style tables index relationships = .ok edges := by
    induction relationships with
    | nil => exact fun _ => ⟨[], rfl⟩
    | cons r rest ih =>
        intro index
        obtain ⟨e, he⟩ : ∃ e, Edge.ofRelationship m o style tables index r = .ok e :=
          h.exists_ofRelationship ho index r
        obtain ⟨edges, hrest⟩ := ih (index + 1)
        exact ⟨_, bind_eq_ok_iff.mpr ⟨e, he, map_eq_ok_iff.mpr ⟨edges, hrest, rfl⟩⟩⟩
  obtain ⟨edges, hedges⟩ := hedges 0
  exact ⟨_, map_eq_ok_iff.mpr ⟨edges, hedges, rfl⟩⟩

/-- When a table is related to itself, it can be drawn only if its height is not negative. -/
theorem height_nonneg_of_routeEdges (ho : o.Reaches) {factor : α} {r : Relationship} {edges : List (Edge α)}
    (h : routeEdges m o style factor tables [r] = .ok edges) (htarget : r.target = r.source) {t : PlacedTable α}
    (ht : tables.find? (·.table.name = r.source.table) = some t) {index : Nat}
    (hindex : t.table.fieldIndex? r.source.field = some index) {size : Size α} (hsize : t.effectiveSize m = .ok size) :
    0 ≤ size.height := by
  have hrow : rowEnd m tables r.source = .ok (some ⟨⟨t.position, size⟩, m.rowCenter index⟩) := by
    simp only [rowEnd, ht, hindex]
    exact map_eq_ok_iff.mpr ⟨size, hsize, rfl⟩
  obtain ⟨_, hedges, -⟩ := map_eq_ok_iff.mp h
  obtain ⟨e, he, -⟩ := bind_eq_ok_iff.mp hedges
  rw [Edge.ofRelationship, htarget, hrow] at he
  obtain ⟨e, he, -⟩ := map_eq_ok_iff.mp he
  exact ((Edge.exists_between_iff ho).mp ⟨e, he⟩).1

end SchemaDiagram
