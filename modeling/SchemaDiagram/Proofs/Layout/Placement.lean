import SchemaDiagram.Layout.Placement

/-! # Layouts as maps

A layout is read through `get?`. Each operation has one equation for the names and one for what a
name has.
-/
namespace SchemaDiagram
namespace Layout

variable {α : Type}

/-! ## Names -/

theorem contains_iff {l : Layout α} {name : Text} : l.contains name = true ↔ name ∈ l.names := by
  simp [contains, names, List.any_eq_true]

theorem get?_eq_none_iff {l : Layout α} {name : Text} : l.get? name = none ↔ name ∉ l.names := by
  simp only [get?, Option.map_eq_none_iff, List.find?_eq_none, decide_eq_true_eq, names, List.mem_map]
  constructor
  · rintro h ⟨e, he, rfl⟩
    exact h e he rfl
  · rintro h e he rfl
    exact h ⟨e, he, rfl⟩

theorem isSome_get? {l : Layout α} {name : Text} : (l.get? name).isSome = l.contains name := by
  rw [Bool.eq_iff_iff, contains_iff, Option.isSome_iff_ne_none, ne_eq, get?_eq_none_iff, Classical.not_not]

theorem mem_entries_of_get? {l : Layout α} {name : Text} {p : Placement α} (h : l.get? name = some p) :
    (name, p) ∈ l.entries := by
  obtain ⟨e, he, rfl⟩ := Option.map_eq_some_iff.mp h
  have hn : e.1 = name := by simpa using List.find?_some he
  exact hn ▸ List.mem_of_find?_eq_some he

theorem get?_cons (e : Text × Placement α) (rest : List (Text × Placement α)) (name : Text) :
    get? ⟨e :: rest⟩ name = if e.1 = name then some e.2 else get? ⟨rest⟩ name := by
  by_cases h : e.1 = name <;> simp [get?, h]

theorem get?_append (as bs : List (Text × Placement α)) (name : Text) :
    get? ⟨as ++ bs⟩ name = (get? ⟨as⟩ name).or (get? ⟨bs⟩ name) := by
  simp [get?, List.find?_append, Option.map_or]

/-! ## Operations -/

@[simp] theorem names_update (l : Layout α) (name : Text) (f : Placement α → Placement α) :
    (l.update name f).names = l.names := by
  simp only [names, update, List.map_map]
  apply List.map_congr_left
  intro e _
  simp only [Function.comp_apply]
  split <;> rfl

theorem get?_update (l : Layout α) (name other : Text) (f : Placement α → Placement α) :
    (l.update name f).get? other = if other = name then (l.get? other).map f else l.get? other := by
  obtain ⟨entries⟩ := l
  simp only [update, get?]
  induction entries with
  | nil => simp
  | cons e rest ih =>
      by_cases hn : e.1 = name <;> by_cases ho : e.1 = other
      · subst hn ho; simp
      · simp only [List.map_cons, hn, ↓reduceIte] at ho ⊢
        simp only [List.find?_cons, ho, hn, decide_false]
        exact ih
      · subst ho; simp [hn]
      · simp only [List.map_cons, hn, ↓reduceIte, List.find?_cons, ho, decide_false]
        exact ih

@[simp] theorem names_move (l : Layout α) (name : Text) (position : Point α) :
    (l.move name position).names = l.names :=
  names_update _ _ _

theorem get?_move (l : Layout α) (name other : Text) (position : Point α) :
    (l.move name position).get? other =
      if other = name then (l.get? other).map fun p => { p with position } else l.get? other :=
  get?_update _ _ _ _

theorem get?_retain (l : Layout α) (keep : Text → Bool) (name : Text) :
    (l.retain keep).get? name = if keep name then l.get? name else none := by
  obtain ⟨entries⟩ := l
  simp only [retain, get?]
  induction entries with
  | nil => simp
  | cons e rest ih =>
      by_cases hk : keep e.1 <;> by_cases hn : e.1 = name
      · subst hn; simp [hk]
      · simpa [hk, hn] using ih
      · subst hn; simpa [hk] using ih
      · simpa [hk, hn] using ih

/-! ## Placing tables -/

@[simp] theorem place_table (l : Layout α) (t : PlacedTable α) : (l.place t).table = t.table := by
  simp only [place]
  split <;> rfl

theorem get?_place {l : Layout α} {t : PlacedTable α} (h : t.table.name ∈ l.names) :
    l.get? (l.place t).table.name = some ⟨(l.place t).position, (l.place t).size⟩ := by
  rw [place_table]
  cases hg : l.get? t.table.name with
  | none => exact absurd h (get?_eq_none_iff.mp hg)
  | some p => simp [place, hg]

theorem place_of_get? {l : Layout α} {t : PlacedTable α} {p : Placement α} (h : l.get? t.table.name = some p) :
    l.place t = ⟨t.table, p.position, p.size⟩ := by
  simp [place, h]

/-- A table that is placed again keeps nothing of its old place. -/
theorem place_place {l l' : Layout α} {t : PlacedTable α} (h : t.table.name ∈ l'.names) :
    l'.place (l.place t) = l'.place t := by
  cases hp : l'.get? t.table.name with
  | none => exact absurd h (get?_eq_none_iff.mp hp)
  | some p =>
      have hagain : l'.get? (l.place t).table.name = some p := by rw [place_table, hp]
      rw [place_of_get? hagain, place_of_get? hp, place_table]

end Layout
end SchemaDiagram
