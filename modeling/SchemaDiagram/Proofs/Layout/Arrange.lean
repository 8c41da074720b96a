import Mathlib.Data.List.Induction
import SchemaDiagram.Layout.Arrange
import SchemaDiagram.Proofs.Failure
import SchemaDiagram.Proofs.Layout.Group
import SchemaDiagram.Proofs.Layout.Placement

/-! # What a layout holds

Both ways to arrange tables give every name of the tables one place, and the size of the first table
that has the name. New tables are placed beside those that have a place, which keep it.
-/
namespace SchemaDiagram

/-! ## First declarations -/

theorem firstDeclarations_append_singleton (tables : List Table) (t : Table) :
    firstDeclarations (tables ++ [t]) =
      if t.name ∈ (firstDeclarations tables).map Table.name then firstDeclarations tables
      else firstDeclarations tables ++ [t] := by
  have hany : (firstDeclarations tables).any (·.name = t.name) = true ↔
      t.name ∈ (firstDeclarations tables).map Table.name := by
    simp [List.any_eq_true]
  simp only [firstDeclarations, List.foldl_append, List.foldl_cons, List.foldl_nil] at hany ⊢
  exact if_congr hany rfl rfl

theorem mem_names_firstDeclarations {tables : List Table} {name : Text} :
    name ∈ (firstDeclarations tables).map Table.name ↔ name ∈ tables.map Table.name := by
  induction tables using List.reverseRecOn with
  | nil => simp [firstDeclarations]
  | append_singleton init t ih =>
      rw [firstDeclarations_append_singleton]
      split
      · rename_i hseen
        rw [ih, List.map_append, List.mem_append]
        constructor
        · exact .inl
        · rintro (h | h)
          · exact h
          · obtain rfl := List.mem_singleton.mp h
            exact ih.mp hseen
      · simp only [List.map_append, List.mem_append, ih]

theorem nodup_names_firstDeclarations (tables : List Table) :
    ((firstDeclarations tables).map Table.name).Nodup := by
  induction tables using List.reverseRecOn with
  | nil => simp [firstDeclarations]
  | append_singleton init t ih =>
      rw [firstDeclarations_append_singleton]
      split
      · exact ih
      · rename_i hnew
        rw [List.map_append, List.nodup_append]
        refine ⟨ih, by simp, ?_⟩
        rintro a ha b hb rfl
        obtain rfl := List.mem_singleton.mp hb
        exact hnew ha

theorem find?_eq_of_mem_firstDeclarations {tables : List Table} {t : Table} (h : t ∈ firstDeclarations tables) :
    tables.find? (·.name = t.name) = some t := by
  induction tables using List.reverseRecOn with
  | nil => simp [firstDeclarations] at h
  | append_singleton init u ih =>
      rw [firstDeclarations_append_singleton] at h
      rw [List.find?_append]
      split at h
      · rw [ih h]; rfl
      · rename_i hnew
        rcases List.mem_append.mp h with h | h
        · rw [ih h]; rfl
        · obtain rfl := List.mem_singleton.mp h
          have hnone : init.find? (·.name = t.name) = none := by
            rw [List.find?_eq_none]
            intro v hv hname
            exact hnew (mem_names_firstDeclarations.mpr
              (of_decide_eq_true hname ▸ List.mem_map_of_mem hv))
          simp [hnone]

/-! ## Layouts without positions -/

section

variable {α : Type}

def Layout.sized (l : Layout α) : List (Sized α) := l.entries.map fun (name, p) => (name, p.size)

theorem Layout.names_sized (l : Layout α) : l.sized.map Prod.fst = l.names := by
  simp [sized, names]

theorem Layout.mem_sized_of_get? {l : Layout α} {name : Text} {p : Placement α} (h : l.get? name = some p) :
    (name, p.size) ∈ l.sized :=
  List.mem_map_of_mem (f := fun (e : Text × Placement α) => (e.1, e.2.size)) (mem_entries_of_get? h)

end

variable {α : Type} [Coordinate α]

/-! ## Sizes -/

theorem names_measureTables {m : Metrics α} {tables : List Table} {sized : List (Sized α)}
    (h : measureTables m tables = .ok sized) :
    sized.map Prod.fst = (firstDeclarations tables).map Table.name := by
  replace h := forall₂_of_mapM_eq_ok h
  generalize firstDeclarations tables = firsts at h ⊢
  induction h with
  | nil => rfl
  | cons hs _ ih =>
      obtain ⟨size, _, rfl⟩ := map_eq_ok_iff.mp hs
      rw [List.map_cons, List.map_cons, ih]

theorem exists_measureTables_of_mem {m : Metrics α} {tables : List Table}
    (h : ∀ t ∈ firstDeclarations tables, ∃ size, m.tableSize t = .ok size) :
    ∃ sized, measureTables m tables = .ok sized := by
  apply exists_mapM_eq_ok
  intro t ht
  obtain ⟨size, hsize⟩ := h t ht
  exact ⟨(t.name, size), map_eq_ok_iff.mpr ⟨size, hsize, rfl⟩⟩

theorem exists_measureTables {m : Metrics α} (h : ∀ t, ∃ size, m.tableSize t = .ok size) (tables : List Table) :
    ∃ sized, measureTables m tables = .ok sized :=
  exists_measureTables_of_mem fun t _ => h t

theorem tableSize_of_mem_measureTables {m : Metrics α} {tables : List Table} {sized : List (Sized α)}
    (h : measureTables m tables = .ok sized) {name : Text} {size : Size α} (hs : (name, size) ∈ sized) :
    ∃ t, tables.find? (·.name = name) = some t ∧ m.tableSize t = .ok size := by
  replace h := forall₂_of_mapM_eq_ok h
  obtain ⟨t, ht, hmem⟩ : ∃ t ∈ firstDeclarations tables,
      (do return (t.name, ← m.tableSize t) : Except EmptyRange (Sized α)) = .ok (name, size) := by
    generalize firstDeclarations tables = firsts at h ⊢
    induction h with
    | nil => cases hs
    | cons ht _ ih =>
        rcases List.mem_cons.mp hs with rfl | hs
        · exact ⟨_, by simp, ht⟩
        · obtain ⟨t, hmem, ht⟩ := ih hs
          exact ⟨t, by simp [hmem], ht⟩
  obtain ⟨_, hsize, heq⟩ := map_eq_ok_iff.mp hmem
  cases heq
  exact ⟨t, find?_eq_of_mem_firstDeclarations ht, hsize⟩

/-- The layout has the names of the tables, each once, with the size of the first table of the name. -/
structure Layout.Fits (l : Layout α) (m : Metrics α) (tables : List Table) : Prop where
  nodup : l.names.Nodup
  mem_names : ∀ name, name ∈ l.names ↔ name ∈ tables.map Table.name
  size : ∀ name p, l.get? name = some p →
    ∃ t, tables.find? (·.name = name) = some t ∧ m.tableSize t = .ok p.size

theorem Layout.Fits.of_perm {l : Layout α} {m : Metrics α} {tables : List Table} {sized : List (Sized α)}
    (h : measureTables m tables = .ok sized) (hp : l.sized.Perm sized) : l.Fits m tables := by
  have hnames : l.names.Perm ((firstDeclarations tables).map Table.name) := by
    rw [← names_measureTables h, ← Layout.names_sized]
    exact hp.map _
  refine ⟨?_, ?_, ?_⟩
  · exact hnames.nodup_iff.mpr (nodup_names_firstDeclarations tables)
  · intro name
    rw [hnames.mem_iff, mem_names_firstDeclarations]
  · intro name p hget
    exact tableSize_of_mem_measureTables h (hp.mem_iff.mp (Layout.mem_sized_of_get? hget))

theorem Layout.Fits.move {l : Layout α} {m : Metrics α} {tables : List Table} (h : l.Fits m tables)
    (name : Text) (position : Point α) : (l.move name position).Fits m tables := by
  refine ⟨by simpa using h.nodup, by simpa using h.mem_names, ?_⟩
  intro other p hget
  rw [Layout.get?_move] at hget
  split at hget
  · obtain ⟨q, hq, rfl⟩ := Option.map_eq_some_iff.mp hget
    exact h.size other q hq
  · exact h.size other p hget

/-- The sizes of a layout's tables are those that measuring them gives. -/
theorem Layout.Fits.exists_measureTables {l : Layout α} {m : Metrics α} {tables : List Table}
    (h : l.Fits m tables) : ∃ sized, measureTables m tables = .ok sized := by
  apply exists_measureTables_of_mem
  intro t ht
  have hn : t.name ∈ l.names :=
    (h.mem_names t.name).mpr (mem_names_firstDeclarations.mp (List.mem_map_of_mem ht))
  cases hp : l.get? t.name with
  | none => exact absurd hn (Layout.get?_eq_none_iff.mp hp)
  | some p =>
      obtain ⟨u, hu, hsize⟩ := h.size t.name p hp
      rw [find?_eq_of_mem_firstDeclarations ht] at hu
      cases hu
      exact ⟨p.size, hsize⟩

/-! ## Grids -/

theorem Grid.sized_fill (g : Grid α) (origin : Point α) (sized : List (Sized α)) :
    Layout.sized ⟨g.fill origin sized⟩ = sized := by
  apply List.ext_getElem
  · simp [Layout.sized, fill, corners]
  · intro i hi hi'
    simp [Layout.sized, fill]

/-! ## New tables -/

/-- What `placeNew` keeps: the names that have a place, with their new size. -/
def keptPlaces (existing : Layout α) (sized : List (Sized α)) : Layout α :=
  ⟨sized.filterMap fun (name, size) => (existing.get? name).map fun p => (name, ⟨p.position, size⟩)⟩

omit [Coordinate α] in
theorem sized_keptPlaces (existing : Layout α) (sized : List (Sized α)) :
    (keptPlaces existing sized).sized = sized.filter fun (name, _) => existing.contains name := by
  simp only [keptPlaces, Layout.sized]
  induction sized with
  | nil => rfl
  | cons s rest ih =>
      rw [List.filterMap_cons, List.filter_cons, ← Layout.isSome_get?]
      cases existing.get? s.1 with
      | none => simpa using ih
      | some p => simpa using ih

omit [Coordinate α] in
theorem get?_keptPlaces {existing : Layout α} {name : Text} {p : Placement α}
    (hp : existing.get? name = some p) {sized : List (Sized α)} (hn : name ∈ sized.map Prod.fst) :
    ((keptPlaces existing sized).get? name).map Placement.position = some p.position := by
  induction sized with
  | nil => cases hn
  | cons s rest ih =>
      rw [List.map_cons, List.mem_cons] at hn
      simp only [keptPlaces] at ih ⊢
      rw [List.filterMap_cons]
      split
      · rename_i hnone
        have hs : s.1 ≠ name := by rintro rfl; simp [hp] at hnone
        exact ih (hn.resolve_left (Ne.symm hs))
      · rename_i e he
        obtain ⟨q, hq, rfl⟩ := Option.map_eq_some_iff.mp he
        rw [Layout.get?_cons]
        by_cases hs : s.1 = name
        · rw [hs, hp] at hq
          cases hq
          simp [hs]
        · simp only [hs, ↓reduceIte]
          exact ih (hn.resolve_left (Ne.symm hs))

theorem placeNew_eq (o : LayoutOptions α) (existing : Layout α) (sized : List (Sized α)) :
    ∃ (grid : Grid α) (origin : Point α), placeNew o existing sized =
      ⟨(keptPlaces existing sized).entries ++
        grid.fill origin (sized.filter fun (name, _) => !existing.contains name)⟩ :=
  ⟨_, _, rfl⟩

theorem sized_placeNew_perm (o : LayoutOptions α) (existing : Layout α) (sized : List (Sized α)) :
    (placeNew o existing sized).sized.Perm sized := by
  obtain ⟨grid, origin, h⟩ := placeNew_eq o existing sized
  have hfresh := grid.sized_fill origin (sized.filter fun (name, _) => !existing.contains name)
  have hkept := sized_keptPlaces existing sized
  simp only [Layout.sized] at hfresh hkept
  rw [h, Layout.sized, List.map_append, hfresh, hkept]
  exact List.filter_append_perm _ _

theorem get?_placeNew (o : LayoutOptions α) {existing : Layout α} {name : Text} {p : Placement α}
    (hp : existing.get? name = some p) {sized : List (Sized α)} (hn : name ∈ sized.map Prod.fst) :
    ((placeNew o existing sized).get? name).map Placement.position = some p.position := by
  obtain ⟨grid, origin, h⟩ := placeNew_eq o existing sized
  obtain ⟨q, hq, hposition⟩ := Option.map_eq_some_iff.mp (get?_keptPlaces hp hn)
  rw [h, Layout.get?_append, hq, Option.some_or, Option.map_some, hposition]

theorem layoutTables_fits {m : Metrics α} {o : LayoutOptions α} {tables : List Table} {existing l : Layout α}
    (h : layoutTables m o tables existing = .ok l) : l.Fits m tables := by
  obtain ⟨sized, hs, rfl⟩ := map_eq_ok_iff.mp h
  exact .of_perm hs (sized_placeNew_perm o existing sized)

/-- A name that has a place and is still the name of a table keeps the place. -/
theorem get?_layoutTables {m : Metrics α} {o : LayoutOptions α} {tables : List Table} {existing l : Layout α}
    (h : layoutTables m o tables existing = .ok l) {name : Text} {p : Placement α}
    (hp : existing.get? name = some p) (hn : name ∈ tables.map Table.name) :
    (l.get? name).map Placement.position = some p.position := by
  obtain ⟨sized, hs, rfl⟩ := map_eq_ok_iff.mp h
  apply get?_placeNew o hp
  rw [names_measureTables hs]
  exact mem_names_firstDeclarations.mpr hn

/-! ## All tables -/

theorem Packing.sized_addGroup (o : LayoutOptions α) (p : Packing α) (group : List (Sized α)) :
    Layout.sized ⟨(p.addGroup o group).placed⟩ = Layout.sized ⟨p.placed⟩ ++ group := by
  have hfill := (Grid.ofSizes o (group.map Prod.snd)).sized_fill
    (p.wrap o (Grid.ofSizes o (group.map Prod.snd)).extent).cursor group
  simp only [Layout.sized] at hfill ⊢
  simp only [addGroup, List.map_append, hfill]
  congr 2
  simp only [wrap]
  split <;> rfl

theorem Packing.sized_foldl_addGroup (o : LayoutOptions α) (groups : List (List (Sized α))) (p : Packing α) :
    Layout.sized ⟨(groups.foldl (fun p group => p.addGroup o group) p).placed⟩ =
      Layout.sized ⟨p.placed⟩ ++ groups.flatten := by
  induction groups generalizing p with
  | nil => simp
  | cons group rest ih => rw [List.foldl_cons, ih, sized_addGroup, List.flatten_cons, List.append_assoc]

theorem filterMap_getElem?_range {β : Type} (bs : List β) :
    (List.range bs.length).filterMap (bs[·]?) = bs := by
  induction bs with
  | nil => rfl
  | cons b rest ih =>
      rw [List.length_cons, List.range_succ_eq_map, List.filterMap_cons, List.filterMap_map]
      simpa using ih

theorem autoLayout_fits {m : Metrics α} {o : LayoutOptions α} {tables : List Table}
    {relationships : List Relationship} {l : Layout α}
    (h : autoLayout m o tables relationships = .ok l) : l.Fits m tables := by
  obtain ⟨sized, hs, rfl⟩ := map_eq_ok_iff.mp h
  apply Layout.Fits.of_perm hs
  let groups := groupTables (firstDeclarations tables) relationships o.maxGroupSize
  have hlength : sized.length = (firstDeclarations tables).length := by
    simpa using congrArg List.length (names_measureTables hs)
  have hplaced := Packing.sized_foldl_addGroup o
    (groups.map fun g => g.members.filterMap (sized[·]?)) (Packing.start o)
  rw [List.foldl_map] at hplaced
  rw [hplaced]
  calc
    _ = (groups.flatMap Group.members).filterMap (sized[·]?) := by
      simp [Packing.start, Layout.sized, List.flatMap, Function.comp_def]
    List.Perm _ ((List.range (firstDeclarations tables).length).filterMap (sized[·]?)) :=
      (groupTables_members_perm _ _ _).filterMap _
    _ = sized := by rw [← hlength, filterMap_getElem?_range]

end SchemaDiagram
