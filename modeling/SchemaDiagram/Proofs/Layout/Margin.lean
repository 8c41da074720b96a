import SchemaDiagram.Proofs.Layout.Packing

/-! # Tables beyond a corner

Tables that are placed stand inside the margin, or under tables that have a place. So nothing is placed left of a
corner or above it, as long as the corner is outside the margin and no table has been put there before.
-/
namespace SchemaDiagram

variable {m : Metrics ℚ} {o : LayoutOptions ℚ} {corner : Point ℚ}

theorem Metrics.le_tableSize {t : Table} {size : Size ℚ} (h : m.tableSize t = .ok size) :
    m.minWidth ≤ size.width ∧ m.minHeight ≤ size.height := by
  obtain ⟨width, hwidth, h⟩ := bind_eq_ok_iff.mp h
  obtain ⟨height, hheight, rfl⟩ := map_eq_ok_iff.mp h
  exact ⟨Coordinate.le_of_clamp hwidth, Coordinate.le_of_clamp hheight⟩

/-- Every place of the layout is beyond the corner. -/
def Layout.StandsBeyond (l : Layout ℚ) (corner : Point ℚ) : Prop :=
  ∀ name p, l.get? name = some p → corner.Beyond p.position

namespace Layout.StandsBeyond

variable {l : Layout ℚ}

theorem retain (h : l.StandsBeyond corner) (keep : Text → Bool) : (l.retain keep).StandsBeyond corner := by
  intro name p hp
  rw [get?_retain] at hp
  split at hp
  · exact h name p hp
  · cases hp

theorem move (h : l.StandsBeyond corner) (name : Text) {position : Point ℚ} (hposition : corner.Beyond position) :
    (l.move name position).StandsBeyond corner := by
  intro other p hp
  rw [get?_move] at hp
  split at hp
  · obtain ⟨_, -, rfl⟩ := Option.map_eq_some_iff.mp hp
    exact hposition
  · exact h other p hp

/-- The lowest edge of the tables that keep their place is under the corner. -/
theorem le_bottom (h : l.StandsBeyond corner) {sized : List (Sized ℚ)} (hsized : ∀ s ∈ sized, 0 ≤ s.2.height)
    {bottom : ℚ} (hbottom : (keptPlaces l sized).bottom? = some bottom) : corner.y ≤ bottom := by
  cases hkept : (keptPlaces l sized).entries with
  | nil =>
      rw [bottom?, hkept] at hbottom
      cases hbottom
  | cons first rest =>
      have hfirst : first ∈ (keptPlaces l sized).entries := hkept ▸ List.mem_cons_self
      obtain ⟨bottom', hbottom', hle⟩ := bottom_le hfirst
      obtain rfl := Option.some.inj (hbottom.symm.trans hbottom')
      obtain ⟨s, hs, hplace⟩ := List.mem_filterMap.mp hfirst
      obtain ⟨p, hp, rfl⟩ := Option.map_eq_some_iff.mp hplace
      exact (h s.1 p hp).top_le.trans ((le_add_of_nonneg_right (hsized s hs)).trans hle)

end Layout.StandsBeyond

namespace Grid

theorem beyond_of_mem_fill {origin : Point ℚ} {sized : List (Sized ℚ)} {e : Text × Placement ℚ}
    (h : e ∈ (ofSizes o (sized.map Prod.snd)).fill origin sized) : origin.Beyond e.2.position := by
  have hwithin := PlacedGroup.within_box (g := ⟨origin, sized⟩) h
  exact ⟨hwithin.left_le, hwithin.top_le⟩

theorem beyond_start (h : corner.Beyond ⟨o.margin, o.margin⟩) (g : Grid ℚ) {below : Option ℚ}
    (hbelow : ∀ bottom ∈ below, corner.y ≤ bottom) : corner.Beyond (g.start o below) := by
  have hmiddle : ∀ {canvas extent : ℚ}, o.margin ≤ (Coordinate.larger canvas (extent + 2 * o.margin) - extent) / 2 := by
    intro canvas extent
    have hle := Coordinate.le_larger canvas (extent + 2 * o.margin)
    linarith
  refine ⟨h.left_le.trans hmiddle, ?_⟩
  cases below with
  | none => exact h.top_le.trans hmiddle
  | some bottom =>
      exact (hbelow bottom rfl).trans (le_add_of_nonneg_right (Coordinate.le_larger o.spacingY 0))

end Grid

theorem placeNew_standsBeyond (hmargin : corner.Beyond ⟨o.margin, o.margin⟩) {existing : Layout ℚ}
    (h : existing.StandsBeyond corner) {sized : List (Sized ℚ)} (hsized : ∀ s ∈ sized, 0 ≤ s.2.height) :
    (placeNew o existing sized).StandsBeyond corner := by
  let fresh := sized.filter fun (name, _) => !existing.contains name
  let grid := Grid.ofSizes o (fresh.map Prod.snd)
  have hentries : (placeNew o existing sized).entries =
      (keptPlaces existing sized).entries ++ grid.fill (grid.start o (keptPlaces existing sized).bottom?) fresh := rfl
  intro name p hp
  have hmem := Layout.mem_entries_of_get? hp
  rw [hentries, List.mem_append] at hmem
  rcases hmem with hkept | hfresh
  · obtain ⟨s, -, hplace⟩ := List.mem_filterMap.mp hkept
    obtain ⟨q, hq, heq⟩ := Option.map_eq_some_iff.mp hplace
    cases heq
    exact h s.1 q hq
  · have hstart := Grid.beyond_start hmargin grid fun _ hbottom => h.le_bottom hsized hbottom
    exact hstart.trans (Grid.beyond_of_mem_fill hfresh)

theorem layoutTables_standsBeyond (hmargin : corner.Beyond ⟨o.margin, o.margin⟩) (hheight : 0 ≤ m.minHeight)
    {tables : List Table} {existing l : Layout ℚ} (h : existing.StandsBeyond corner)
    (hl : layoutTables m o tables existing = .ok l) : l.StandsBeyond corner := by
  obtain ⟨sized, hsized, rfl⟩ := map_eq_ok_iff.mp hl
  refine placeNew_standsBeyond hmargin h fun s hs => ?_
  obtain ⟨t, -, hsize⟩ := tableSize_of_mem_measureTables hsized hs
  exact hheight.trans (Metrics.le_tableSize hsize).2

theorem exists_packed_of_autoLayout {tables : List Table} {relationships : List Relationship} {l : Layout ℚ}
    (h : autoLayout m o tables relationships = .ok l) :
    ∃ p groups, Packing.Packed o p groups ∧ l.entries = p.placed := by
  obtain ⟨sized, -, rfl⟩ := map_eq_ok_iff.mp h
  let members := (groupTables (firstDeclarations tables) relationships o.maxGroupSize).map
    fun g => g.members.filterMap (sized[·]?)
  obtain ⟨groups, -, hpacked⟩ := (Packing.packed_start o).addGroups members
  rw [List.foldl_map] at hpacked
  exact ⟨_, _, hpacked, rfl⟩

theorem autoLayout_standsBeyond (hmargin : corner.Beyond ⟨o.margin, o.margin⟩) {tables : List Table}
    {relationships : List Relationship} {l : Layout ℚ} (h : autoLayout m o tables relationships = .ok l) :
    l.StandsBeyond corner := by
  obtain ⟨p, groups, hpacked, hentries⟩ := exists_packed_of_autoLayout h
  intro name place hplace
  have hmem := Layout.mem_entries_of_get? hplace
  rw [hentries, hpacked.placed_eq] at hmem
  obtain ⟨g, hg, he⟩ := List.mem_flatMap.mp hmem
  obtain ⟨hx, hy⟩ := hpacked.origin_ge g hg
  have horigin : Point.Beyond ⟨o.margin, o.margin⟩ g.origin := ⟨hx, hy⟩
  exact hmargin.trans (horigin.trans (Grid.beyond_of_mem_fill he))

end SchemaDiagram
