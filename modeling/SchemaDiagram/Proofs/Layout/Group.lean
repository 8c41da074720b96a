import SchemaDiagram.Layout.Group

/-! # Groups partition the tables

Every table is a member of exactly one group. A group only takes in tables that are in no group yet,
and every table is the seed of a group unless an earlier group has taken it in.
-/
namespace SchemaDiagram

/-! ## Links -/

/-- A relationship leads from the one table to the other; a name stands for the first table that has it. -/
def Relationship.Joins (tables : List Table) (r : Relationship) (i j : Nat) : Prop :=
  tables.findIdx? (·.name = r.source.table) = some i ∧ tables.findIdx? (·.name = r.target.table) = some j

theorem mem_links {tables : List Table} {relationships : List Relationship} {i j : Nat} :
    (i, j) ∈ links tables relationships ↔ i ≠ j ∧ ∃ r ∈ relationships, r.Joins tables i j := by
  simp only [links, List.mem_filterMap, Option.bind_eq_bind, Option.bind_eq_some_iff]
  constructor
  · rintro ⟨r, hr, a, ha, b, hb, hab⟩
    split at hab
    · cases hab
    · next hne =>
        cases hab
        exact ⟨hne, r, hr, ha, hb⟩
  · rintro ⟨hne, r, hr, ha, hb⟩
    exact ⟨r, hr, i, ha, j, hb, if_neg hne⟩

theorem lt_of_mem_links {tables : List Table} {relationships : List Relationship} {l : Nat × Nat}
    (h : l ∈ links tables relationships) : l.1 < tables.length ∧ l.2 < tables.length := by
  obtain ⟨-, r, -, hsource, htarget⟩ := mem_links.mp h
  exact ⟨(List.findIdx?_eq_some_iff_findIdx_eq.mp hsource).1, (List.findIdx?_eq_some_iff_findIdx_eq.mp htarget).1⟩

theorem mem_inVisitOrder {ls : List (Nat × Nat)} {tables : List Nat} {i : Nat} :
    i ∈ inVisitOrder ls tables ↔ i ∈ tables :=
  (List.mergeSort_perm _ _).mem_iff

theorem mem_neighbours {ls : List (Nat × Nat)} {table i : Nat} :
    i ∈ neighbours ls table ↔ (table, i) ∈ ls ∨ (i, table) ∈ ls := by
  rw [neighbours, List.mem_eraseDups, mem_inVisitOrder, List.mem_filterMap]
  constructor
  · rintro ⟨⟨a, b⟩, hl, h⟩
    by_cases ha : a = table
    · simp only [ha, ↓reduceIte, Option.some.injEq] at h
      subst ha h
      exact .inl hl
    · by_cases hb : b = table
      · simp only [ha, hb, ↓reduceIte, Option.some.injEq] at h
        subst hb h
        exact .inr hl
      · simp [ha, hb] at h
  · rintro (hl | hl)
    · exact ⟨_, hl, if_pos rfl⟩
    · refine ⟨_, hl, ?_⟩
      by_cases hi : i = table
      · simp [hi]
      · simp [hi]

namespace Group

variable {ls : List (Nat × Nat)} {maxSize count : Nat} {taken members : List Nat}

/-! ## Growing -/

theorem takeIn_cases (maxSize : Nat) (taken members : List Nat) (table : Nat) :
    (takeIn maxSize taken members table = members ∧
      (table ∈ taken ∨ table ∈ members ∨ maxSize ≤ members.length)) ∨
    takeIn maxSize taken members table = members ++ [table] ∧
      members.length < maxSize ∧ table ∉ taken ∧ table ∉ members := by
  rw [takeIn]
  split
  · next h => exact .inr ⟨rfl, h⟩
  · next h =>
      rw [Decidable.not_and_iff_not_or_not, Decidable.not_and_iff_not_or_not, Nat.not_lt, Decidable.not_not,
        Decidable.not_not, or_comm, or_assoc] at h
      exact .inl ⟨rfl, h⟩

/-- What is kept when one of some tables joins a group holds once all of them had their turn. -/
theorem foldl_takeIn_induction {P : List Nat → Prop} {table : Nat} {tables : List Nat} (h : P members)
    (htable : table ∈ members)
    (hstep : ∀ members i, P members → table ∈ members → i ∈ tables → members.length < maxSize → i ∉ taken →
      i ∉ members → P (members ++ [i])) :
    P (tables.foldl (takeIn maxSize taken) members) := by
  induction tables generalizing members with
  | nil => exact h
  | cons i rest ih =>
      have hrest : ∀ members j, P members → table ∈ members → j ∈ rest → members.length < maxSize → j ∉ taken →
          j ∉ members → P (members ++ [j]) :=
        fun members j hP ht hj => hstep members j hP ht (List.mem_cons_of_mem _ hj)
      rw [List.foldl_cons]
      rcases takeIn_cases maxSize taken members i with ⟨htake, -⟩ | ⟨htake, hsize, htaken, hmem⟩
      · rw [htake]
        exact ih h htable hrest
      · rw [htake]
        exact ih (hstep members i h htable List.mem_cons_self hsize htaken hmem)
          (List.mem_append_left _ htable) hrest

/-- What is kept when a neighbour of a member joins a group holds of the group once it is grown. -/
theorem grow_induction {P : List Nat → Prop} (fuel next : Nat) (h : P members)
    (hstep : ∀ members table i, P members → table ∈ members → i ∈ neighbours ls table → members.length < maxSize →
      i ∉ taken → i ∉ members → P (members ++ [i])) :
    P (grow ls maxSize taken fuel next members) := by
  induction fuel generalizing next members with
  | zero => exact h
  | succ fuel ih =>
      simp only [grow]
      split
      · exact h
      · next table htable =>
          refine ih _ (foldl_takeIn_induction h (List.mem_of_getElem? htable) ?_)
          exact fun members i hP ht => hstep members table i hP ht

/-- What holds of a group as it grows: its members are tables, none of them twice or in an earlier
group. -/
structure Growing (count : Nat) (taken members : List Nat) : Prop where
  nodup : members.Nodup
  fresh : ∀ i ∈ members, i ∉ taken
  bound : ∀ i ∈ members, i < count

theorem growing_singleton {seed : Nat} (hseed : seed < count) (hfresh : seed ∉ taken) : Growing count taken [seed] where
  nodup := List.pairwise_singleton _ seed
  fresh := List.forall_mem_singleton.mpr hfresh
  bound := List.forall_mem_singleton.mpr hseed

/-- Members stay distinct tables when the earlier groups are forgotten. -/
theorem Growing.alone (h : Growing count taken members) : Growing count [] members :=
  ⟨h.nodup, fun _ _ => List.not_mem_nil, h.bound⟩

theorem Growing.concat (h : Growing count taken members) {i : Nat} (hcount : i < count) (htaken : i ∉ taken)
    (hmem : i ∉ members) : Growing count taken (members ++ [i]) := by
  refine ⟨List.nodup_append.mpr ⟨h.nodup, List.pairwise_singleton _ i, ?_⟩, fun j hj => ?_, fun j hj => ?_⟩
  · rintro a ha b hb rfl
    exact hmem (List.mem_singleton.mp hb ▸ ha)
  · rcases List.mem_append.mp hj with hj | hj
    · exact h.fresh j hj
    · exact List.mem_singleton.mp hj ▸ htaken
  · rcases List.mem_append.mp hj with hj | hj
    · exact h.bound j hj
    · exact List.mem_singleton.mp hj ▸ hcount

theorem lt_of_mem_neighbours (hls : ∀ l ∈ ls, l.1 < count ∧ l.2 < count) {table i : Nat}
    (hi : i ∈ neighbours ls table) : i < count := by
  rcases mem_neighbours.mp hi with hl | hl
  · exact (hls _ hl).2
  · exact (hls _ hl).1

theorem Growing.grow (hls : ∀ l ∈ ls, l.1 < count ∧ l.2 < count) (fuel next : Nat)
    (h : Growing count taken members) : Growing count taken (grow ls maxSize taken fuel next members) :=
  grow_induction fuel next h fun _ _ _ hgrowing _ hi _ htaken hmem =>
    hgrowing.concat (lt_of_mem_neighbours hls hi) htaken hmem

theorem prefix_grow (fuel next : Nat) : members <+: grow ls maxSize taken fuel next members :=
  grow_induction (P := (members <+: ·)) fuel next (List.prefix_refl _)
    fun _ _ i hmore _ _ _ _ _ => hmore.trans (List.prefix_append _ [i])

/-! ## Seeds -/

theorem growing_ofSeeds (hls : ∀ l ∈ ls, l.1 < count ∧ l.2 < count) {seeds : List Nat}
    (hs : ∀ i ∈ seeds, i < count) :
    Growing count taken ((ofSeeds ls maxSize count taken seeds).flatMap Group.members) := by
  induction seeds generalizing taken with
  | nil => exact ⟨by simp [ofSeeds], by simp [ofSeeds], by simp [ofSeeds]⟩
  | cons seed rest ih =>
      have hrest : ∀ i ∈ rest, i < count := fun i hi => hs i (by simp [hi])
      simp only [ofSeeds]
      split
      · exact ih hrest
      · rename_i hseed
        have hgroup : Growing count taken (grow ls maxSize taken count 0 [seed]) :=
          (growing_singleton (hs seed List.mem_cons_self) (by simpa using hseed)).grow hls count 0
        have hmore := @ih (taken ++ grow ls maxSize taken count 0 [seed]) hrest
        simp only [List.flatMap_cons]
        refine ⟨List.nodup_append.mpr ⟨hgroup.nodup, hmore.nodup, ?_⟩, ?_, ?_⟩
        · rintro a ha b hb rfl
          exact hmore.fresh a hb (List.mem_append_right _ ha)
        · intro i hi
          rcases List.mem_append.mp hi with hi | hi
          · exact hgroup.fresh i hi
          · exact fun ht => hmore.fresh i hi (List.mem_append_left _ ht)
        · intro i hi
          rcases List.mem_append.mp hi with hi | hi
          · exact hgroup.bound i hi
          · exact hmore.bound i hi

theorem mem_ofSeeds {seeds : List Nat} {i : Nat} (hi : i ∈ seeds) :
    i ∈ taken ∨ i ∈ (ofSeeds ls maxSize count taken seeds).flatMap Group.members := by
  induction seeds generalizing taken with
  | nil => cases hi
  | cons seed rest ih =>
      simp only [ofSeeds]
      split
      · rename_i hseed
        rcases List.mem_cons.mp hi with rfl | hi
        · exact .inl hseed
        · exact ih hi
      · simp only [List.flatMap_cons, List.mem_append]
        rcases List.mem_cons.mp hi with rfl | hi
        · exact .inr (.inl ((prefix_grow _ _).subset (by simp)))
        · rcases @ih (taken ++ grow ls maxSize taken count 0 [seed]) hi with h | h
          · rcases List.mem_append.mp h with h | h
            · exact .inl h
            · exact .inr (.inl h)
          · exact .inr (.inr h)

end Group

/-- Every table is a member of exactly one group, and there once. -/
theorem groupTables_members_perm (tables : List Table) (relationships : List Relationship) (maxSize : Nat) :
    ((groupTables tables relationships maxSize).flatMap Group.members).Perm (List.range tables.length) := by
  let ls := links tables relationships
  let seeds := inVisitOrder ls (List.range tables.length)
  have hseeds : ∀ i, i ∈ seeds ↔ i < tables.length := fun i => by simp [seeds, mem_inVisitOrder]
  have hgroups : Group.Growing tables.length []
      ((Group.ofSeeds ls (max 1 maxSize) tables.length [] seeds).flatMap Group.members) :=
    Group.growing_ofSeeds (fun l hl => lt_of_mem_links hl) (fun i hi => (hseeds i).mp hi)
  have hperm : ((groupTables tables relationships maxSize).flatMap Group.members).Perm
      ((Group.ofSeeds ls (max 1 maxSize) tables.length [] seeds).flatMap Group.members) :=
    (List.mergeSort_perm _ _).flatMap_right _
  refine hperm.trans ((List.perm_ext_iff_of_nodup hgroups.nodup List.nodup_range).mpr fun i => ?_)
  rw [List.mem_range]
  constructor
  · exact hgroups.bound i
  · intro hi
    exact (Group.mem_ofSeeds ((hseeds i).mpr hi)).resolve_left List.not_mem_nil

end SchemaDiagram
