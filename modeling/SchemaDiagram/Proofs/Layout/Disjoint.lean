import Mathlib.Tactic.Linarith
import SchemaDiagram.Proofs.Geometry.Exact
import SchemaDiagram.Proofs.Layout.Arrange

/-! # New tables overlap nothing

In exact coordinates the cells of a grid lie apart, and each holds its table whatever the gaps and sizes
are. A grid of new tables starts under the lowest edge of the tables that keep their place.
-/
namespace SchemaDiagram

/-! ## Sizes -/

theorem Metrics.exists_tableSize (m : Metrics ℚ) (t : Table) : ∃ size, m.tableSize t = .ok size := by
  obtain ⟨width, hwidth⟩ := Coordinate.exists_clamp (Coordinate.le_larger m.maxWidth m.minWidth) (m.naturalWidth t)
  obtain ⟨height, hheight⟩ :=
    Coordinate.exists_clamp (Coordinate.le_larger m.maxHeight m.minHeight) (m.naturalHeight t)
  refine ⟨⟨width, height⟩, ?_⟩
  rw [tableSize, hwidth, hheight]
  rfl

/-! ## Cells of a grid -/

namespace Grid

variable {o : LayoutOptions ℚ} {sizes : List (Size ℚ)}

/-- The grid has a column, and no cell or gap of it is negative. -/
structure Spread (g : Grid ℚ) : Prop where
  columns_pos : 0 < g.columns
  width_nonneg : 0 ≤ g.cell.width
  height_nonneg : 0 ≤ g.cell.height
  spacingX_nonneg : 0 ≤ g.spacingX
  spacingY_nonneg : 0 ≤ g.spacingY

theorem columnCount_pos {n : Nat} (h : n ≠ 0) : 0 < columnCount n := by
  rw [columnCount]
  split
  · exact Nat.pos_of_ne_zero h
  · decide

theorem spread_ofSizes (o : LayoutOptions ℚ) (h : sizes ≠ []) : (ofSizes o sizes).Spread where
  columns_pos := columnCount_pos fun hnil => h (List.length_eq_zero_iff.mp hnil)
  width_nonneg := Coordinate.largest_nonneg _
  height_nonneg := Coordinate.largest_nonneg _
  spacingX_nonneg := Coordinate.le_larger o.spacingX 0
  spacingY_nonneg := Coordinate.le_larger o.spacingY 0

/-- Every table fits into a cell. -/
theorem le_cell_ofSizes (o : LayoutOptions ℚ) {size : Size ℚ} (h : size ∈ sizes) :
    size.width ≤ (ofSizes o sizes).cell.width ∧ size.height ≤ (ofSizes o sizes).cell.height := by
  have hwidth : size.width ∈ sizes.map Size.width := List.mem_map_of_mem h
  have hheight : size.height ∈ sizes.map Size.height := List.mem_map_of_mem h
  exact ⟨Coordinate.le_largest hwidth, Coordinate.le_largest hheight⟩

theorem add_le_of_lt {i j : Nat} (h : i < j) {length gap extent : ℚ} (hlength : 0 ≤ length) (hgap : 0 ≤ gap)
    (hextent : extent ≤ length) (start : ℚ) :
    start + i * (length + gap) + extent ≤ start + j * (length + gap) := by
  have hsucc : (i : ℚ) + 1 ≤ j := by exact_mod_cast h
  have hcell : ((i : ℚ) + 1) * (length + gap) ≤ j * (length + gap) :=
    mul_le_mul_of_nonneg_right hsucc (add_nonneg hlength hgap)
  linarith

/-- What stands in a cell ends before a later column, or a later row, starts. -/
theorem Spread.apart {g : Grid ℚ} (h : g.Spread) {i j : Nat}
    (hij : i % g.columns < j % g.columns ∨ i / g.columns < j / g.columns) {a : Size ℚ}
    (ha : a.width ≤ g.cell.width ∧ a.height ≤ g.cell.height) (origin : Point ℚ) :
    Rect.right ⟨origin + g.corner i, a⟩ ≤ (origin + g.corner j).x ∨
    Rect.bottom ⟨origin + g.corner i, a⟩ ≤ (origin + g.corner j).y := by
  rcases hij with hlt | hlt
  · exact .inl (add_le_of_lt hlt h.width_nonneg h.spacingX_nonneg ha.1 origin.x)
  · exact .inr (add_le_of_lt hlt h.height_nonneg h.spacingY_nonneg ha.2 origin.y)

/-- Two tables in different cells do not overlap. -/
theorem Spread.not_overlaps {g : Grid ℚ} (h : g.Spread) {i j : Nat} (hij : i ≠ j) {a b : Size ℚ}
    (ha : a.width ≤ g.cell.width ∧ a.height ≤ g.cell.height) (hb : b.width ≤ g.cell.width ∧ b.height ≤ g.cell.height)
    (origin : Point ℚ) : ¬Rect.Overlaps ⟨origin + g.corner i, a⟩ ⟨origin + g.corner j, b⟩ := by
  have hcell : i % g.columns ≠ j % g.columns ∨ i / g.columns ≠ j / g.columns := by
    by_contra hsame
    rw [not_or, not_not, not_not] at hsame
    apply hij
    rw [← Nat.div_add_mod i g.columns, ← Nat.div_add_mod j g.columns, hsame.1, hsame.2]
  have hbefore : (i % g.columns < j % g.columns ∨ i / g.columns < j / g.columns) ∨
      (j % g.columns < i % g.columns ∨ j / g.columns < i / g.columns) := by omega
  rcases hbefore with hlt | hlt
  · have hapart := h.apart hlt ha origin
    exact Rect.not_overlaps hapart
  · have hapart := h.apart hlt hb origin
    exact fun ho => absurd ho.symm (Rect.not_overlaps hapart)

theorem mem_fill {α : Type} [Coordinate α] {g : Grid α} {origin : Point α} {sized : List (Sized α)}
    {e : Text × Placement α} (h : e ∈ g.fill origin sized) :
    ∃ i s, sized[i]? = some s ∧ e = (s.1, ⟨origin + g.corner i, s.2⟩) := by
  obtain ⟨i, hi, rfl⟩ := List.mem_iff_getElem.mp h
  have hlt : i < sized.length := by
    simp only [fill, List.length_zipWith] at hi
    omega
  refine ⟨i, sized[i], List.getElem?_eq_getElem hlt, ?_⟩
  simp [fill, corners]

/-- All cells stand under the lowest of the tables that keep their place. -/
theorem Spread.le_corner {g : Grid ℚ} (h : g.Spread) (o : LayoutOptions ℚ) (bottom : ℚ) (i : Nat) :
    bottom ≤ (g.start o (some bottom) + g.corner i).y := by
  have hstart : (g.start o (some bottom)).y = bottom + Coordinate.larger o.spacingY 0 := rfl
  have hgap : 0 ≤ Coordinate.larger o.spacingY 0 := Coordinate.le_larger o.spacingY 0
  have hrow : 0 ≤ ((i / g.columns : Nat) : ℚ) * (g.cell.height + g.spacingY) :=
    mul_nonneg (Nat.cast_nonneg _) (add_nonneg h.height_nonneg h.spacingY_nonneg)
  have hy : (g.start o (some bottom) + g.corner i).y =
      (g.start o (some bottom)).y + ((i / g.columns : Nat) : ℚ) * (g.cell.height + g.spacingY) := rfl
  rw [hy, hstart]
  linarith

end Grid

/-! ## Tables that keep their place -/

theorem Layout.bottom_le {l : Layout ℚ} {e : Text × Placement ℚ} (h : e ∈ l.entries) :
    ∃ bottom, l.bottom? = some bottom ∧ e.2.rect.bottom ≤ bottom := by
  obtain ⟨_ | ⟨first, rest⟩⟩ := l
  · cases h
  refine ⟨(rest.map fun e => e.2.rect.bottom).foldl max first.2.rect.bottom, ?_, ?_⟩
  · rw [List.foldl_map, bottom?]
    simp only [Coordinate.larger_eq_max]
  · have hmax := Coordinate.le_foldl_max (rest.map fun e => e.2.rect.bottom) first.2.rect.bottom
    rcases List.mem_cons.mp h with rfl | h
    · exact hmax.1
    · exact hmax.2 _ (List.mem_map_of_mem h)

theorem mem_names_of_mem_keptPlaces {α : Type} [Coordinate α] {existing : Layout α} {sized : List (Sized α)}
    {e : Text × Placement α} (h : e ∈ (keptPlaces existing sized).entries) : e.1 ∈ existing.names := by
  obtain ⟨s, -, hs⟩ := List.mem_filterMap.mp h
  obtain ⟨p, hp, rfl⟩ := Option.map_eq_some_iff.mp hs
  exact List.mem_map.mpr ⟨_, Layout.mem_entries_of_get? hp, rfl⟩

/-- A new table overlaps no table of another name, wherever that one stands. -/
theorem placeNew_disjoint (o : LayoutOptions ℚ) (existing : Layout ℚ) (sized : List (Sized ℚ))
    {e f : Text × Placement ℚ} (he : e ∈ (placeNew o existing sized).entries) (hnew : e.1 ∉ existing.names)
    (hf : f ∈ (placeNew o existing sized).entries) (hne : f.1 ≠ e.1) : ¬e.2.rect.Overlaps f.2.rect := by
  let kept := keptPlaces existing sized
  let fresh := sized.filter fun (name, _) => !existing.contains name
  let grid := Grid.ofSizes o (fresh.map Prod.snd)
  have hentries : (placeNew o existing sized).entries = kept.entries ++ grid.fill (grid.start o kept.bottom?) fresh :=
    rfl
  rw [hentries, List.mem_append] at he hf
  obtain ⟨i, s, hs, rfl⟩ := Grid.mem_fill (he.resolve_left fun hkept => hnew (mem_names_of_mem_keptPlaces hkept))
  have hsize : ∀ {k : Nat} {t : Sized ℚ}, fresh[k]? = some t → t.2 ∈ fresh.map Prod.snd :=
    fun ht => List.mem_map_of_mem (List.mem_of_getElem? ht)
  have hspread : grid.Spread := Grid.spread_ofSizes o (List.ne_nil_of_mem (hsize hs))
  rcases hf with hkept | hfresh
  · obtain ⟨bottom, hbottom, hle⟩ := Layout.bottom_le hkept
    rw [hbottom]
    have habove := hle.trans (hspread.le_corner o bottom i)
    exact fun ho => absurd ho.symm (Rect.not_overlaps (.inr habove))
  · obtain ⟨j, t, ht, rfl⟩ := Grid.mem_fill hfresh
    have hij : i ≠ j := by
      rintro rfl
      rw [hs] at ht
      cases ht
      exact hne rfl
    have hapart := hspread.not_overlaps hij (Grid.le_cell_ofSizes o (hsize hs)) (Grid.le_cell_ofSizes o (hsize ht))
      (grid.start o kept.bottom?)
    exact hapart

/-! ## The layout -/

/-- Placing tables always succeeds in exact coordinates. Every name has one place and the size of its
first table. A name that had a place keeps it, however those places lie; a new table overlaps nothing. -/
theorem layoutTables_disjoint (m : Metrics ℚ) (o : LayoutOptions ℚ) (tables : List Table) (existing : Layout ℚ) :
    ∃ l, layoutTables m o tables existing = .ok l ∧ l.Fits m tables ∧
      (∀ name p, existing.get? name = some p → name ∈ tables.map Table.name →
        (l.get? name).map Placement.position = some p.position) ∧
      ∀ name p, l.get? name = some p → name ∉ existing.names →
        ∀ other q, l.get? other = some q → other ≠ name → ¬p.rect.Overlaps q.rect := by
  obtain ⟨sized, hsized⟩ := exists_measureTables m.exists_tableSize tables
  have hlayout : layoutTables m o tables existing = .ok (placeNew o existing sized) :=
    map_eq_ok_iff.mpr ⟨sized, hsized, rfl⟩
  refine ⟨placeNew o existing sized, hlayout, layoutTables_fits hlayout, ?_, ?_⟩
  · exact fun name p hp hname => get?_layoutTables hlayout hp hname
  · intro name p hp hnew other q hq hne
    have hapart := placeNew_disjoint o existing sized (Layout.mem_entries_of_get? hp) hnew
      (Layout.mem_entries_of_get? hq) hne
    exact hapart

end SchemaDiagram
