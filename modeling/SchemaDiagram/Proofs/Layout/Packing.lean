import Mathlib.Tactic.Ring
import SchemaDiagram.Proofs.Layout.Disjoint

/-! # Groups packed in rows

When all tables are placed anew, every group fills the box of a grid of its own. The boxes of a row stand
side by side and rows stand one below the other, so that in exact coordinates no two boxes overlap, whatever
the sizes, gaps and margins are.
-/
namespace SchemaDiagram

/-! ## Boxes -/

namespace Rect

/-- `s` starts behind the right edge or under the lower edge of `r`. -/
def Precedes (r s : Rect ℚ) : Prop := r.right ≤ s.origin.x ∨ r.bottom ≤ s.origin.y

/-- `r` stands inside `s`. -/
structure Within (r s : Rect ℚ) : Prop where
  left_le : s.origin.x ≤ r.origin.x
  top_le : s.origin.y ≤ r.origin.y
  right_le : r.right ≤ s.right
  bottom_le : r.bottom ≤ s.bottom

variable {r s r' s' : Rect ℚ}

theorem Precedes.within (h : r.Precedes s) (hr : r'.Within r) (hs : s'.Within s) : r'.Precedes s' := by
  rcases h with h | h
  · exact .inl (hr.right_le.trans (h.trans hs.left_le))
  · exact .inr (hr.bottom_le.trans (h.trans hs.top_le))

theorem Overlaps.of_within (h : r'.Overlaps s') (hr : r'.Within r) (hs : s'.Within s) : r.Overlaps s :=
  ⟨hr.left_le.trans_lt (h.1.trans_le hs.right_le), hs.left_le.trans_lt (h.2.1.trans_le hr.right_le),
    hr.top_le.trans_lt (h.2.2.1.trans_le hs.bottom_le), hs.top_le.trans_lt (h.2.2.2.trans_le hr.bottom_le)⟩

end Rect

/-! ## Tables in the box of their grid -/

namespace Grid

/-- The box of a grid that starts at `origin`. -/
def box (g : Grid ℚ) (origin : Point ℚ) : Rect ℚ := ⟨origin, g.extent⟩

/-- What stands in a cell ends before the last of `count` cells does. -/
theorem add_le_extent {i count : Nat} (h : i < count) {length gap extent : ℚ} (hlength : 0 ≤ length)
    (hgap : 0 ≤ gap) (hextent : extent ≤ length) :
    i * (length + gap) + extent ≤ count * length + (count - 1 : Nat) * gap := by
  have hcount : ((count - 1 : Nat) : ℚ) + 1 = count := by exact_mod_cast Nat.sub_add_cancel (by omega)
  have hi : (i : ℚ) ≤ (count - 1 : Nat) := by exact_mod_cast Nat.le_sub_one_of_lt h
  have hcells : (i : ℚ) * (length + gap) ≤ (count - 1 : Nat) * (length + gap) :=
    mul_le_mul_of_nonneg_right hi (add_nonneg hlength hgap)
  calc (i : ℚ) * (length + gap) + extent
    _ ≤ (count - 1 : Nat) * (length + gap) + length := add_le_add hcells hextent
    _ = (((count - 1 : Nat) : ℚ) + 1) * length + (count - 1 : Nat) * gap := by ring
    _ = count * length + (count - 1 : Nat) * gap := by rw [hcount]

theorem Spread.corner_nonneg {g : Grid ℚ} (h : g.Spread) (i : Nat) : 0 ≤ (g.corner i).x ∧ 0 ≤ (g.corner i).y :=
  ⟨mul_nonneg (Nat.cast_nonneg _) (add_nonneg h.width_nonneg h.spacingX_nonneg),
    mul_nonneg (Nat.cast_nonneg _) (add_nonneg h.height_nonneg h.spacingY_nonneg)⟩

theorem Spread.extent_eq {g : Grid ℚ} (h : g.Spread) :
    g.extent = ⟨g.columns * g.cell.width + (g.columns - 1 : Nat) * g.spacingX,
      g.rows * g.cell.height + (g.rows - 1 : Nat) * g.spacingY⟩ :=
  if_neg h.columns_pos.ne'

theorem div_lt_rows_ofSizes (o : LayoutOptions ℚ) {sizes : List (Size ℚ)} {i : Nat} (h : i < sizes.length) :
    i / (ofSizes o sizes).columns < (ofSizes o sizes).rows := by
  have hpos : 0 < columnCount sizes.length := columnCount_pos (by omega)
  have hrow : i / columnCount sizes.length + 1 = (i + columnCount sizes.length) / columnCount sizes.length :=
    (Nat.add_div_right i hpos).symm
  have hrows : (i + columnCount sizes.length) / columnCount sizes.length ≤
      (sizes.length + columnCount sizes.length - 1) / columnCount sizes.length :=
    Nat.div_le_div_right (by omega)
  exact Nat.lt_of_succ_le (hrow.trans_le hrows)

theorem within_box (o : LayoutOptions ℚ) {sizes : List (Size ℚ)} {i : Nat} {size : Size ℚ}
    (h : sizes[i]? = some size) (origin : Point ℚ) :
    Rect.Within ⟨origin + (ofSizes o sizes).corner i, size⟩ ((ofSizes o sizes).box origin) := by
  have hmem := List.mem_of_getElem? h
  have hspread := spread_ofSizes o (List.ne_nil_of_mem hmem)
  have hcell := le_cell_ofSizes o hmem
  have hcorner := hspread.corner_nonneg i
  have hrow := div_lt_rows_ofSizes o (List.getElem?_eq_some_iff.mp h).1
  have hwidth := add_le_extent (Nat.mod_lt i hspread.columns_pos) hspread.width_nonneg hspread.spacingX_nonneg hcell.1
  have hheight := add_le_extent hrow hspread.height_nonneg hspread.spacingY_nonneg hcell.2
  refine ⟨le_add_of_nonneg_right hcorner.1, le_add_of_nonneg_right hcorner.2, ?_, ?_⟩
  · rw [box, hspread.extent_eq]
    exact (add_assoc _ _ _).trans_le (add_le_add_right hwidth origin.x)
  · rw [box, hspread.extent_eq]
    exact (add_assoc _ _ _).trans_le (add_le_add_right hheight origin.y)

theorem extent_nonneg (o : LayoutOptions ℚ) (sizes : List (Size ℚ)) :
    0 ≤ (ofSizes o sizes).extent.width ∧ 0 ≤ (ofSizes o sizes).extent.height := by
  cases sizes with
  | nil => exact ⟨le_refl 0, le_refl 0⟩
  | cons size more =>
      have hspread := spread_ofSizes o (List.cons_ne_nil size more)
      rw [hspread.extent_eq]
      exact ⟨add_nonneg (mul_nonneg (Nat.cast_nonneg _) hspread.width_nonneg)
          (mul_nonneg (Nat.cast_nonneg _) hspread.spacingX_nonneg),
        add_nonneg (mul_nonneg (Nat.cast_nonneg _) hspread.height_nonneg)
          (mul_nonneg (Nat.cast_nonneg _) hspread.spacingY_nonneg)⟩

end Grid

/-! ## Placed groups -/

/-- A group at its place: where its grid starts, and its tables in order. -/
structure PlacedGroup where
  origin : Point ℚ
  tables : List (Sized ℚ)

namespace PlacedGroup

variable (o : LayoutOptions ℚ)

def grid (g : PlacedGroup) : Grid ℚ := Grid.ofSizes o (g.tables.map Prod.snd)

def box (g : PlacedGroup) : Rect ℚ := (g.grid o).box g.origin

def entries (g : PlacedGroup) : List (Text × Placement ℚ) := (g.grid o).fill g.origin g.tables

variable {o}

theorem within_box {g : PlacedGroup} {e : Text × Placement ℚ} (h : e ∈ g.entries o) : e.2.rect.Within (g.box o) := by
  obtain ⟨i, s, hs, rfl⟩ := Grid.mem_fill h
  exact Grid.within_box o (by rw [List.getElem?_map, hs]; rfl) g.origin

/-- The tables of a group do not overlap. -/
theorem pairwise_entries (g : PlacedGroup) :
    (g.entries o).Pairwise fun e f => ¬e.2.rect.Overlaps f.2.rect := by
  rw [List.pairwise_iff_getElem]
  intro i j hi hj hij
  have hlength : (g.entries o).length = g.tables.length := by simp [entries, Grid.fill, Grid.corners]
  have hsize : ∀ {k : Nat} (hk : k < g.tables.length), g.tables[k].2 ∈ g.tables.map Prod.snd :=
    fun hk => List.mem_map_of_mem (List.getElem_mem hk)
  have hspread := Grid.spread_ofSizes o (List.ne_nil_of_mem (hsize (hlength ▸ hi)))
  have happart := hspread.not_overlaps hij.ne (Grid.le_cell_ofSizes o (hsize (hlength ▸ hi)))
    (Grid.le_cell_ofSizes o (hsize (hlength ▸ hj))) g.origin
  simpa [entries, Grid.fill, Grid.corners, grid, Placement.rect] using happart

end PlacedGroup

/-! ## Packing -/

namespace Packing

/-- What holds while groups are packed: the boxes placed so far stand left of the cursor or above the current
row, and none reaches below the row. -/
structure Packed (o : LayoutOptions ℚ) (p : Packing ℚ) (groups : List PlacedGroup) : Prop where
  placed_eq : p.placed = groups.flatMap (PlacedGroup.entries o)
  cursor_ge : o.margin ≤ p.cursor.x ∧ o.margin ≤ p.cursor.y
  rowHeight_nonneg : 0 ≤ p.rowHeight
  behind : ∀ g ∈ groups, (g.box o).right ≤ p.cursor.x ∨ (g.box o).bottom ≤ p.cursor.y
  above : ∀ g ∈ groups, (g.box o).bottom ≤ p.cursor.y + p.rowHeight
  origin_ge : ∀ g ∈ groups, o.margin ≤ g.origin.x ∧ o.margin ≤ g.origin.y
  fits : ∀ g ∈ groups, o.margin < g.origin.x → (g.box o).right ≤ o.canvasWidth - o.margin
  precedes : groups.Pairwise fun g h => (g.box o).Precedes (h.box o)

variable {o : LayoutOptions ℚ} {p : Packing ℚ} {groups : List PlacedGroup}

theorem gap_nonneg (o : LayoutOptions ℚ) : 0 ≤ gap o := Coordinate.le_larger o.groupGap 0

theorem packed_start (o : LayoutOptions ℚ) : Packed o (start o) [] where
  placed_eq := rfl
  cursor_ge := ⟨le_refl _, le_refl _⟩
  rowHeight_nonneg := le_refl 0
  behind := nofun
  above := nofun
  origin_ge := nofun
  fits := nofun
  precedes := .nil

/-- A new row starts under everything placed so far. -/
theorem Packed.wrap (h : Packed o p groups) (extent : Size ℚ) : Packed o (p.wrap o extent) groups := by
  rw [Packing.wrap]
  split
  · have hrow : p.cursor.y + p.rowHeight ≤ p.cursor.y + p.rowHeight + gap o :=
      le_add_of_nonneg_right (gap_nonneg o)
    have habove : ∀ g ∈ groups, (g.box o).bottom ≤ p.cursor.y + p.rowHeight + gap o :=
      fun g hg => (h.above g hg).trans hrow
    have hcursor : p.cursor.y ≤ p.cursor.y + p.rowHeight := le_add_of_nonneg_right h.rowHeight_nonneg
    exact { h with
      cursor_ge := ⟨le_refl _, h.cursor_ge.2.trans (hcursor.trans hrow)⟩
      rowHeight_nonneg := le_refl 0
      behind := fun g hg => .inr (habove g hg)
      above := fun g hg => (habove g hg).trans (add_zero _).ge }
  · exact h

/-- Behind the start of a row a group fits into it. -/
theorem fits_wrap (o : LayoutOptions ℚ) (p : Packing ℚ) (extent : Size ℚ) (h : o.margin < (p.wrap o extent).cursor.x) :
    (p.wrap o extent).cursor.x + extent.width ≤ o.canvasWidth - o.margin := by
  rw [Packing.wrap] at h ⊢
  split at h
  · exact absurd h (lt_irrefl _)
  · next hc =>
      rw [if_neg hc]
      rw [not_and] at hc
      exact not_lt.mp (hc h)

theorem Packed.addGroup (h : Packed o p groups) (group : List (Sized ℚ)) :
    ∃ origin, Packed o (p.addGroup o group) (groups ++ [⟨origin, group⟩]) := by
  let extent := (Grid.ofSizes o (group.map Prod.snd)).extent
  let q := p.wrap o extent
  let new : PlacedGroup := ⟨q.cursor, group⟩
  have hq : Packed o q groups := h.wrap extent
  obtain ⟨hwidth, hheight⟩ : 0 ≤ extent.width ∧ 0 ≤ extent.height := Grid.extent_nonneg o _
  have hright : (new.box o).right = q.cursor.x + extent.width := rfl
  have hbottom : (new.box o).bottom = q.cursor.y + extent.height := rfl
  have hadvance : q.cursor.x ≤ q.cursor.x + (extent.width + gap o) :=
    le_add_of_nonneg_right (add_nonneg hwidth (gap_nonneg o))
  have hpassed : (new.box o).right ≤ q.cursor.x + (extent.width + gap o) := by
    rw [hright, ← add_assoc]
    exact le_add_of_nonneg_right (gap_nonneg o)
  have hrow : q.rowHeight ≤ Coordinate.larger q.rowHeight extent.height ∧
      extent.height ≤ Coordinate.larger q.rowHeight extent.height := by
    rw [Coordinate.larger_eq_max]
    exact ⟨le_max_left _ _, le_max_right _ _⟩
  refine ⟨q.cursor, ?_, ⟨hq.cursor_ge.1.trans hadvance, hq.cursor_ge.2⟩, hq.rowHeight_nonneg.trans hrow.1, ?_, ?_, ?_, ?_, ?_⟩
  · rw [List.flatMap_append, ← hq.placed_eq, List.flatMap_singleton]
    rfl
  · intro g hg
    rcases List.mem_append.mp hg with hg | hg
    · exact (hq.behind g hg).imp_left fun hle => hle.trans hadvance
    · exact .inl (List.mem_singleton.mp hg ▸ hpassed)
  · intro g hg
    rcases List.mem_append.mp hg with hg | hg
    · exact (hq.above g hg).trans (add_le_add_right hrow.1 _)
    · rw [List.mem_singleton.mp hg]
      exact hbottom.trans_le (add_le_add_right hrow.2 _)
  · intro g hg
    rcases List.mem_append.mp hg with hg | hg
    · exact hq.origin_ge g hg
    · exact List.mem_singleton.mp hg ▸ hq.cursor_ge
  · intro g hg hlt
    rcases List.mem_append.mp hg with hg | hg
    · exact hq.fits g hg hlt
    · obtain rfl := List.mem_singleton.mp hg
      exact fits_wrap o p extent hlt
  · rw [List.pairwise_append]
    refine ⟨hq.precedes, List.pairwise_singleton _ _, fun g hg f hf => ?_⟩
    exact List.mem_singleton.mp hf ▸ hq.behind g hg

theorem Packed.addGroups (h : Packed o p groups) (more : List (List (Sized ℚ))) :
    ∃ placed, placed.map PlacedGroup.tables = more ∧
      Packed o (more.foldl (fun p group => p.addGroup o group) p) (groups ++ placed) := by
  induction more generalizing p groups with
  | nil => exact ⟨[], rfl, by simpa using h⟩
  | cons group rest ih =>
      obtain ⟨origin, hgroup⟩ := h.addGroup group
      obtain ⟨placed, rfl, hrest⟩ := ih hgroup
      exact ⟨⟨origin, group⟩ :: placed, rfl, by simpa using hrest⟩

theorem Packed.pairwise_placed (h : Packed o p groups) :
    p.placed.Pairwise fun e f => ¬e.2.rect.Overlaps f.2.rect := by
  rw [h.placed_eq, List.pairwise_flatMap]
  refine ⟨fun g _ => g.pairwise_entries, h.precedes.imp ?_⟩
  intro g f hgf a ha b hb
  exact Rect.not_overlaps (hgf.within (PlacedGroup.within_box ha) (PlacedGroup.within_box hb))

end Packing

/-! ## The layout -/

/-- No two tables of the layout overlap. -/
def Layout.Disjoint (l : Layout ℚ) : Prop :=
  ∀ name p, l.get? name = some p → ∀ other q, l.get? other = some q → other ≠ name → ¬p.rect.Overlaps q.rect

theorem Layout.disjoint_of_pairwise {l : Layout ℚ}
    (h : l.entries.Pairwise fun e f => ¬e.2.rect.Overlaps f.2.rect) : l.Disjoint := by
  have : Std.Symm fun e f : Text × Placement ℚ => ¬e.2.rect.Overlaps f.2.rect := ⟨fun _ _ hn ho => hn ho.symm⟩
  intro name p hp other q hq hne
  have hentries : (name, p) ≠ (other, q) := fun heq => hne (congrArg Prod.fst heq).symm
  exact h.forall (mem_entries_of_get? hp) (mem_entries_of_get? hq) hentries

/-- Placing all tables anew always succeeds in exact coordinates: every name has one place and the size of its
first table, no two tables overlap, and all stand inside the margin. The groups stand in their order, each on
a grid of its own, and one that is not the first of its row ends before the margin of the canvas. -/
theorem autoLayout_packed (m : Metrics ℚ) (o : LayoutOptions ℚ) (tables : List Table)
    (relationships : List Relationship) :
    ∃ (l : Layout ℚ) (sized : List (Sized ℚ)) (groups : List PlacedGroup),
      autoLayout m o tables relationships = .ok l ∧ measureTables m tables = .ok sized ∧ l.Fits m tables ∧
      l.Disjoint ∧
      (∀ name p, l.get? name = some p → o.margin ≤ p.position.x ∧ o.margin ≤ p.position.y) ∧
      groups.map PlacedGroup.tables = (groupTables (firstDeclarations tables) relationships o.maxGroupSize).map
        (fun g => g.members.filterMap (sized[·]?)) ∧
      l.entries = groups.flatMap (PlacedGroup.entries o) ∧
      ∀ g ∈ groups, o.margin < g.origin.x → (g.box o).right ≤ o.canvasWidth - o.margin := by
  obtain ⟨sized, hsized⟩ := exists_measureTables m.exists_tableSize tables
  let members := (groupTables (firstDeclarations tables) relationships o.maxGroupSize).map
    fun g => g.members.filterMap (sized[·]?)
  obtain ⟨groups, hgroups, hpacked⟩ := (Packing.packed_start o).addGroups members
  rw [List.nil_append] at hpacked
  let l : Layout ℚ := ⟨(members.foldl (fun p group => p.addGroup o group) (Packing.start o)).placed⟩
  have hlayout : autoLayout m o tables relationships = .ok l := by
    refine map_eq_ok_iff.mpr ⟨sized, hsized, ?_⟩
    rw [← List.foldl_map]
  refine ⟨l, sized, groups, hlayout, hsized, autoLayout_fits hlayout, ?_, ?_, hgroups, hpacked.placed_eq, hpacked.fits⟩
  · exact Layout.disjoint_of_pairwise hpacked.pairwise_placed
  · intro name p hp
    have hentries : l.entries = groups.flatMap (PlacedGroup.entries o) := hpacked.placed_eq
    obtain ⟨g, hg, he⟩ := List.mem_flatMap.mp (hentries ▸ Layout.mem_entries_of_get? hp)
    have hwithin := PlacedGroup.within_box he
    have horigin := hpacked.origin_ge g hg
    exact ⟨horigin.1.trans hwithin.left_le, horigin.2.trans hwithin.top_le⟩

end SchemaDiagram
