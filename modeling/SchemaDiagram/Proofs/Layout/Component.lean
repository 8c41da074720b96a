import Mathlib.Combinatorics.SimpleGraph.Connectivity.Connected
import Mathlib.Data.Set.Card
import SchemaDiagram.Proofs.Layout.Group

/-! # Groups and components

The relationships make the tables the nodes of a graph. A group is always connected in it; a group that never
gets full has nothing related to it left outside, so that it is a whole component.
-/
namespace SchemaDiagram

/-! ## The graph of the tables -/

/-- Two different tables with a relationship between them. -/
def Related (tables : List Table) (relationships : List Relationship) (i j : Nat) : Prop :=
  i ≠ j ∧ ∃ r ∈ relationships, r.Joins tables i j ∨ r.Joins tables j i

theorem Related.symm {tables : List Table} {relationships : List Relationship} {i j : Nat}
    (h : Related tables relationships i j) : Related tables relationships j i := by
  obtain ⟨hne, r, hr, hjoins⟩ := h
  exact ⟨hne.symm, r, hr, hjoins.symm⟩

/-- The tables as nodes. A table that is not the first of its name is related to none. -/
def tableGraph (tables : List Table) (relationships : List Relationship) : SimpleGraph (Fin tables.length) where
  Adj i j := Related tables relationships i j
  symm := ⟨fun _ _ h => h.symm⟩
  loopless := ⟨fun _ h => h.1 rfl⟩

/-- Both names are those of tables, and of different ones. -/
def Relationship.isBetween (tables : List Table) (r : Relationship) : Bool :=
  r.source.table ≠ r.target.table ∧ r.source.table ∈ tables.map Table.name ∧ r.target.table ∈ tables.map Table.name

theorem mem_neighbours_links {tables : List Table} {relationships : List Relationship} {i j : Nat} :
    j ∈ neighbours (links tables relationships) i ↔ Related tables relationships i j := by
  rw [mem_neighbours, mem_links, mem_links, Related]
  constructor
  · rintro (⟨hne, r, hr, h⟩ | ⟨hne, r, hr, h⟩)
    · exact ⟨hne, r, hr, .inl h⟩
    · exact ⟨hne.symm, r, hr, .inr h⟩
  · rintro ⟨hne, r, hr, h | h⟩
    · exact .inl ⟨hne, r, hr, h⟩
    · exact .inr ⟨hne.symm, r, hr, h⟩

namespace Group

variable {ls : List (Nat × Nat)} {maxSize count : Nat} {taken members : List Nat}

/-! ## Members are related -/

/-- Every member but the first is a neighbour of one that joined earlier. -/
def Linked (ls : List (Nat × Nat)) (members : List Nat) : Prop :=
  ∀ front i rest, members = front ++ i :: rest → front ≠ [] → ∃ j ∈ front, i ∈ neighbours ls j

theorem linked_singleton (seed : Nat) : Linked ls [seed] := by
  intro front i rest h hfront
  rcases List.singleton_eq_append_iff.mp h with ⟨hnil, -⟩ | ⟨-, hnil⟩
  · exact absurd hnil hfront
  · cases hnil

theorem Linked.concat (h : Linked ls members) {table i : Nat} (htable : table ∈ members)
    (hi : i ∈ neighbours ls table) : Linked ls (members ++ [i]) := by
  intro front j rest hmembers hfront
  rcases List.eq_nil_or_concat' rest with rfl | ⟨init, last, rfl⟩
  · obtain ⟨rfl, hij⟩ := List.append_inj' hmembers rfl
    cases hij
    exact ⟨table, htable, hi⟩
  · rw [← List.cons_append, ← List.append_assoc] at hmembers
    exact h front j init (List.append_inj_left' hmembers rfl) hfront

theorem linked_grow (ls : List (Nat × Nat)) (maxSize : Nat) (taken : List Nat) (fuel seed : Nat) :
    Linked ls (grow ls maxSize taken fuel 0 [seed]) :=
  grow_induction fuel 0 (linked_singleton seed) fun _ _ _ hlinked ht hi _ _ _ => hlinked.concat ht hi

theorem length_grow_le {fuel next : Nat} (h : members.length ≤ maxSize) :
    (grow ls maxSize taken fuel next members).length ≤ maxSize := by
  refine grow_induction (P := (·.length ≤ maxSize)) fuel next h fun members _ i _ _ _ hsize _ _ => ?_
  rw [List.length_append, List.length_singleton]
  exact hsize

/-! ## Nothing related is left outside -/

/-- The neighbours of the members in front of `next` are in a group, unless this one is full. -/
def Visited (ls : List (Nat × Nat)) (maxSize : Nat) (taken : List Nat) (next : Nat) (members : List Nat) : Prop :=
  ∀ table ∈ members.take next, ∀ i ∈ neighbours ls table, i ∈ taken ∨ i ∈ members ∨ maxSize ≤ members.length

theorem prefix_foldl_takeIn {table : Nat} (htable : table ∈ members) (tables : List Nat) :
    members <+: tables.foldl (takeIn maxSize taken) members :=
  foldl_takeIn_induction (P := (members <+: ·)) (List.prefix_refl _) htable
    fun _ i h _ _ _ _ _ => h.trans (List.prefix_append _ [i])

/-- A table that has its turn is taken in, unless it has a group or this one is full. -/
theorem mem_foldl_takeIn {table i : Nat} (htable : table ∈ members) {tables : List Nat} (hi : i ∈ tables) :
    i ∈ taken ∨ i ∈ tables.foldl (takeIn maxSize taken) members ∨
      maxSize ≤ (tables.foldl (takeIn maxSize taken) members).length := by
  obtain ⟨front, back, rfl⟩ := List.append_of_mem hi
  rw [List.foldl_append, List.foldl_cons]
  have hfront : members <+: front.foldl (takeIn maxSize taken) members := prefix_foldl_takeIn htable front
  generalize front.foldl (takeIn maxSize taken) members = grown at hfront
  have hgrown : table ∈ grown := hfront.subset htable
  rcases takeIn_cases maxSize taken grown i with ⟨htake, htaken | hmem | hfull⟩ | ⟨htake, -⟩
  · exact .inl htaken
  · rw [htake]
    exact .inr (.inl ((prefix_foldl_takeIn hgrown back).subset hmem))
  · rw [htake]
    exact .inr (.inr (Nat.le_trans hfull (prefix_foldl_takeIn hgrown back).length_le))
  · rw [htake]
    have hback : grown ++ [i] <+: back.foldl (takeIn maxSize taken) (grown ++ [i]) :=
      prefix_foldl_takeIn (List.mem_append_left _ hgrown) back
    exact .inr (.inl (hback.subset (List.mem_append_right _ List.mem_cons_self)))

theorem Visited.next {next table : Nat} (h : Visited ls maxSize taken next members)
    (htable : members[next]? = some table) :
    Visited ls maxSize taken (next + 1) ((neighbours ls table).foldl (takeIn maxSize taken) members) := by
  have hmem : table ∈ members := List.mem_of_getElem? htable
  have hkept : members <+: (neighbours ls table).foldl (takeIn maxSize taken) members :=
    prefix_foldl_takeIn hmem (neighbours ls table)
  have htake : ((neighbours ls table).foldl (takeIn maxSize taken) members).take (next + 1) =
      members.take next ++ [table] := by
    obtain ⟨more, hmore⟩ := hkept
    have hlt : next + 1 ≤ members.length := (List.getElem?_eq_some_iff.mp htable).1
    rw [← hmore, List.take_append_of_le_length hlt, List.take_add_one, htable, Option.toList_some]
  intro visited hvisited i hi
  rw [htake, List.mem_append, List.mem_singleton] at hvisited
  rcases hvisited with hvisited | rfl
  · rcases h visited hvisited i hi with htaken | hmember | hfull
    · exact .inl htaken
    · exact .inr (.inl (hkept.subset hmember))
    · exact .inr (.inr (Nat.le_trans hfull hkept.length_le))
  · exact mem_foldl_takeIn hmem hi

theorem Growing.length_le (h : Growing count taken members) : members.length ≤ count := by
  have hsubset : members ⊆ List.range count := fun i hi => List.mem_range.mpr (h.bound i hi)
  simpa using h.nodup.length_le_of_subset hsubset

/-- A group of distinct tables is grown when all its members are visited, and no sooner. -/
theorem visited_grow (hls : ∀ l ∈ ls, l.1 < count ∧ l.2 < count) {fuel next : Nat}
    (hgrowing : Growing count taken members) (hfuel : count ≤ fuel + next) (h : Visited ls maxSize taken next members) :
    ∀ table ∈ grow ls maxSize taken fuel next members, ∀ i ∈ neighbours ls table, i ∈ taken ∨
      i ∈ grow ls maxSize taken fuel next members ∨ maxSize ≤ (grow ls maxSize taken fuel next members).length := by
  have hall : members.length ≤ next → ∀ table ∈ members, ∀ i ∈ neighbours ls table,
      i ∈ taken ∨ i ∈ members ∨ maxSize ≤ members.length := by
    intro hnext
    rw [Visited, List.take_of_length_le hnext] at h
    exact h
  induction fuel generalizing next members with
  | zero =>
      rw [Nat.zero_add] at hfuel
      exact hall (Nat.le_trans hgrowing.length_le hfuel)
  | succ fuel ih =>
      simp only [grow]
      split
      · next hnone => exact hall (List.getElem?_eq_none_iff.mp hnone)
      · next table htable =>
          have hvisited := h.next htable
          refine ih ?_ (by omega) hvisited fun hnext => ?_
          · refine foldl_takeIn_induction hgrowing (List.mem_of_getElem? htable) ?_
            exact fun _ i hg _ hi _ htaken hmem => hg.concat (lt_of_mem_neighbours hls hi) htaken hmem
          · rw [Visited, List.take_of_length_le hnext] at hvisited
            exact hvisited

/-- No neighbour of these tables is missing among them. -/
def Closed (ls : List (Nat × Nat)) (members : List Nat) : Prop :=
  ∀ table ∈ members, ∀ i ∈ neighbours ls table, i ∈ members

theorem neighbours_comm {i j : Nat} : i ∈ neighbours ls j ↔ j ∈ neighbours ls i := by
  rw [mem_neighbours, mem_neighbours, or_comm]

/-- Where related tables are never more than a group holds, a group never gets full too early. -/
theorem closed_grow (hls : ∀ l ∈ ls, l.1 < count ∧ l.2 < count)
    (hsmall : ∀ xs, Growing count [] xs → Linked ls xs → xs.length ≤ maxSize) {seed : Nat} (hseed : seed < count)
    (htaken : Closed ls taken) (hfresh : seed ∉ taken) : Closed ls (grow ls maxSize taken count 0 [seed]) := by
  have hfirst : Growing count taken [seed] := growing_singleton hseed hfresh
  have hgrowing : Growing count taken (grow ls maxSize taken count 0 [seed]) := hfirst.grow hls count 0
  have hlinked := linked_grow ls maxSize taken count seed
  have hstart : Visited ls maxSize taken 0 [seed] := fun _ h => absurd h List.not_mem_nil
  have hvisited := visited_grow hls hfirst (Nat.le_refl (count + 0)) hstart
  generalize grow ls maxSize taken count 0 [seed] = members at hgrowing hlinked hvisited
  intro table htable i hi
  by_contra hmem
  rcases hvisited table htable i hi with hother | hmember | hfull
  · exact hgrowing.fresh table htable (htaken i hother table (neighbours_comm.mp hi))
  · exact hmem hmember
  · -- one more table would be one too many
    have hmore : Growing count [] (members ++ [i]) :=
      hgrowing.alone.concat (lt_of_mem_neighbours hls hi) List.not_mem_nil hmem
    have hlength := hsmall _ hmore (hlinked.concat htable hi)
    rw [List.length_append, List.length_singleton] at hlength
    omega

/-! ## All groups -/

/-- What holds of every group that is grown from a seed in no group holds of all groups. -/
theorem ofSeeds_induction {T P : List Nat → Prop} {seeds : List Nat} (htaken : T taken)
    (hstep : ∀ taken, ∀ seed ∈ seeds, T taken → seed ∉ taken →
      P (grow ls maxSize taken count 0 [seed]) ∧ T (taken ++ grow ls maxSize taken count 0 [seed])) :
    ∀ g ∈ ofSeeds ls maxSize count taken seeds, P g.members := by
  induction seeds generalizing taken with
  | nil => exact fun g hg => nomatch hg
  | cons seed rest ih =>
      have hrest : ∀ taken, ∀ seed ∈ rest, T taken → seed ∉ taken →
          P (grow ls maxSize taken count 0 [seed]) ∧ T (taken ++ grow ls maxSize taken count 0 [seed]) :=
        fun taken s hs => hstep taken s (List.mem_cons_of_mem _ hs)
      simp only [ofSeeds]
      split
      · exact ih htaken hrest
      · next hfresh =>
          obtain ⟨hgroup, hmore⟩ := hstep taken seed List.mem_cons_self htaken hfresh
          intro g hg
          rcases List.mem_cons.mp hg with rfl | hg
          · exact hgroup
          · exact ih hmore hrest g hg

theorem connectivity_ofSeeds (seeds : List Nat) :
    ∀ g ∈ ofSeeds ls maxSize count taken seeds, g.connectivity = (g.members.map (degree ls)).sum := by
  induction seeds generalizing taken with
  | nil => exact fun g hg => nomatch hg
  | cons seed rest ih =>
      simp only [ofSeeds]
      split
      · exact ih
      · intro g hg
        rcases List.mem_cons.mp hg with rfl | hg
        · rw [List.sum_eq_foldl, List.foldl_map]
        · exact ih g hg

end Group

/-! ## Degrees -/

theorem sum_countP_eq_length {f : Nat × Nat → Nat} {count : Nat} {ls : List (Nat × Nat)}
    (h : ∀ l ∈ ls, f l < count) : ((List.range count).map fun i => ls.countP (f · = i)).sum = ls.length := by
  induction ls with
  | nil => simp
  | cons l rest ih =>
      have hone : ((List.range count).map fun i => if f l = i then 1 else 0).sum = 1 := by
        have hmem : f l ∈ List.range count := List.mem_range.mpr (h l List.mem_cons_self)
        rw [List.sum_map_eq_nsmul_single (f l) _ fun i hi _ => if_neg (Ne.symm hi),
          List.count_eq_one_of_mem List.nodup_range hmem, if_pos rfl, smul_eq_mul, Nat.mul_one]
      simp only [List.countP_cons, decide_eq_true_eq]
      rw [List.sum_map_add, ih fun l hl => h l (List.mem_cons_of_mem _ hl), hone, List.length_cons]

theorem sum_degree {count : Nat} {ls : List (Nat × Nat)} (hls : ∀ l ∈ ls, l.1 < count ∧ l.2 < count) :
    ((List.range count).map (degree ls)).sum = 2 * ls.length := by
  have hdegree : (List.range count).map (degree ls) =
      (List.range count).map fun i => ls.countP (·.1 = i) + ls.countP (·.2 = i) := rfl
  rw [hdegree, List.sum_map_add, sum_countP_eq_length fun l hl => (hls l hl).1,
    sum_countP_eq_length fun l hl => (hls l hl).2, Nat.two_mul]

theorem length_links (tables : List Table) (relationships : List Relationship) :
    (links tables relationships).length = relationships.countP (·.isBetween tables) := by
  rw [links, List.length_filterMap_eq_countP]
  refine List.countP_congr fun r _ => ?_
  have hnames : ∀ name : Text, (tables.findIdx? (·.name = name)).isSome = true ↔ name ∈ tables.map Table.name := by
    intro name
    rw [List.findIdx?_isSome, List.any_eq_true, List.mem_map]
    simp only [decide_eq_true_eq]
  simp only [Relationship.isBetween, decide_eq_true_eq, ← hnames]
  cases ha : tables.findIdx? (·.name = r.source.table) with
  | none => simp
  | some a =>
      cases hb : tables.findIdx? (·.name = r.target.table) with
      | none => simp
      | some b =>
          have hab : a = b ↔ r.source.table = r.target.table := by
            constructor
            · rintro rfl
              obtain ⟨_, hsource, -⟩ := List.findIdx?_eq_some_iff_getElem.mp ha
              obtain ⟨_, htarget, -⟩ := List.findIdx?_eq_some_iff_getElem.mp hb
              rw [decide_eq_true_eq] at hsource htarget
              exact hsource.symm.trans htarget
            · intro hname
              rw [hname, hb] at ha
              exact (Option.some.inj ha).symm
          simp [hab]

/-! ## Groups as components -/

section

variable {tables : List Table} {relationships : List Relationship}

/-- The tables with these indices. -/
def memberSet (count : Nat) (members : List Nat) : Set (Fin count) := {i | i.val ∈ members}

theorem ncard_memberSet {count : Nat} {members : List Nat} (h : Group.Growing count [] members) :
    (memberSet count members).ncard = members.length := by
  have himage : Fin.val '' memberSet count members = (members.toFinset : Set Nat) := by
    ext i
    simp only [memberSet, Set.mem_image, Set.mem_ofPred_eq, List.coe_toFinset]
    constructor
    · rintro ⟨j, hj, rfl⟩
      exact hj
    · exact fun hi => ⟨⟨i, h.bound i hi⟩, hi, rfl⟩
  rw [← Set.ncard_image_of_injective _ Fin.val_injective, himage, Set.ncard_coe_finset,
    List.toFinset_card_of_nodup h.nodup]

theorem reachable_of_linked {seed : Nat} (hseed : seed < tables.length) {members : List Nat}
    (h : Group.Linked (links tables relationships) members) (hhead : members.head? = some seed) {i : Nat}
    (hi : i < tables.length) (hmem : i ∈ members) :
    (tableGraph tables relationships).Reachable ⟨seed, hseed⟩ ⟨i, hi⟩ := by
  induction members using List.reverseRecOn generalizing i with
  | nil => cases hmem
  | append_singleton init last ih =>
      rcases List.eq_nil_or_concat' init with rfl | ⟨_, _, rfl⟩
      · obtain rfl := Option.some.inj hhead
        obtain rfl := List.mem_singleton.mp hmem
        exact .refl _
      · next xs x =>
          have hinit : Group.Linked (links tables relationships) (xs ++ [x]) := by
            intro front j back hmembers hfront
            refine h front j (back ++ [last]) ?_ hfront
            rw [hmembers, List.append_assoc, List.cons_append]
          have hhead' : (xs ++ [x]).head? = some seed := by
            rwa [List.head?_append_of_ne_nil _ (by simp)] at hhead
          rcases List.mem_append.mp hmem with hmem | hmem
          · exact ih hinit hhead' hi hmem
          · obtain rfl := List.mem_singleton.mp hmem
            obtain ⟨j, hj, hneighbour⟩ := h (xs ++ [x]) i [] rfl (by simp)
            have hrelated := mem_neighbours_links.mp hneighbour
            have hlt : j < tables.length :=
              Group.lt_of_mem_neighbours (fun l hl => lt_of_mem_links hl) (mem_neighbours_links.mpr hrelated.symm)
            have hadj : (tableGraph tables relationships).Adj ⟨j, hlt⟩ ⟨i, hi⟩ := hrelated
            exact (ih hinit hhead' hlt hj).trans hadj.reachable

/-- All members of a group are in the component of its first member. -/
theorem memberSet_subset_supp {seed : Nat} {rest : List Nat}
    (h : Group.Linked (links tables relationships) (seed :: rest)) (hseed : seed < tables.length) :
    memberSet tables.length (seed :: rest) ⊆
      ((tableGraph tables relationships).connectedComponentMk ⟨seed, hseed⟩).supp := by
  intro i hi
  rw [SimpleGraph.ConnectedComponent.mem_supp_iff, SimpleGraph.ConnectedComponent.eq]
  exact (reachable_of_linked hseed h rfl i.isLt hi).symm

/-- A group with nothing related to it outside has all of the component of its first member. -/
theorem supp_subset_memberSet {seed : Nat} {rest : List Nat}
    (h : Group.Closed (links tables relationships) (seed :: rest)) (hseed : seed < tables.length) :
    ((tableGraph tables relationships).connectedComponentMk ⟨seed, hseed⟩).supp ⊆
      memberSet tables.length (seed :: rest) := by
  intro i hi
  rw [SimpleGraph.ConnectedComponent.mem_supp_iff, SimpleGraph.ConnectedComponent.eq] at hi
  have hpath := (SimpleGraph.reachable_iff_reflTransGen _ _).mp hi.symm
  clear hi
  induction hpath with
  | refl => exact List.mem_cons_self
  | tail _ hadj ih => exact h _ ih _ (mem_neighbours_links.mpr hadj)

theorem mem_groupTables {maxSize : Nat} {g : Group} :
    g ∈ groupTables tables relationships maxSize ↔
      g ∈ Group.ofSeeds (links tables relationships) (max 1 maxSize) tables.length []
        (inVisitOrder (links tables relationships) (List.range tables.length)) :=
  (List.mergeSort_perm _ _).mem_iff

/-- What every group that is grown from the table of a seed has, all groups have. -/
theorem groupTables_induction {T P : List Nat → Prop} {maxSize : Nat} (htaken : T [])
    (hstep : ∀ taken, ∀ seed < tables.length, T taken → seed ∉ taken →
      let members := Group.grow (links tables relationships) (max 1 maxSize) taken tables.length 0 [seed]
      P members ∧ T (taken ++ members)) :
    ∀ g ∈ groupTables tables relationships maxSize, P g.members := by
  intro g hg
  refine Group.ofSeeds_induction htaken (fun taken seed hseed => hstep taken seed ?_) g (mem_groupTables.mp hg)
  exact List.mem_range.mp (mem_inVisitOrder.mp hseed)

theorem growing_of_mem_groupTables {maxSize : Nat} :
    ∀ g ∈ groupTables tables relationships maxSize, Group.Growing tables.length [] g.members ∧ g.members ≠ [] := by
  refine groupTables_induction (T := fun _ => True)
    (P := fun members => Group.Growing tables.length [] members ∧ members ≠ []) trivial
    fun taken seed hseed _ hfresh => ⟨⟨?_, ?_⟩, trivial⟩
  · have hfirst := Group.growing_singleton hseed hfresh
    exact (hfirst.grow (fun l hl => lt_of_mem_links hl) tables.length 0).alone
  · have hstart : [seed] <+: Group.grow (links tables relationships) (max 1 maxSize) taken tables.length 0 [seed] :=
      Group.prefix_grow tables.length 0
    intro hnil
    rw [hnil, List.prefix_nil] at hstart
    cases hstart

/-- When no component is larger than a group may be, groups have nothing related to them outside. -/
theorem closed_of_mem_groupTables {maxSize : Nat}
    (h : ∀ c : (tableGraph tables relationships).ConnectedComponent, c.supp.ncard ≤ max 1 maxSize) :
    ∀ g ∈ groupTables tables relationships maxSize, Group.Closed (links tables relationships) g.members := by
  have hls : ∀ l ∈ links tables relationships, l.1 < tables.length ∧ l.2 < tables.length :=
    fun l hl => lt_of_mem_links hl
  have hsmall : ∀ xs, Group.Growing tables.length [] xs → Group.Linked (links tables relationships) xs →
      xs.length ≤ max 1 maxSize := by
    intro xs hgrowing hlinked
    cases xs with
    | nil => exact Nat.zero_le _
    | cons seed rest =>
        have hseed := hgrowing.bound seed List.mem_cons_self
        rw [← ncard_memberSet hgrowing]
        exact (Set.ncard_le_ncard (memberSet_subset_supp hlinked hseed)).trans (h _)
  refine groupTables_induction (T := Group.Closed (links tables relationships))
    (fun _ h => absurd h List.not_mem_nil) fun taken seed hseed htaken hfresh => ?_
  have hclosed := Group.closed_grow hls hsmall hseed htaken hfresh
  refine ⟨hclosed, fun table htable i hi => ?_⟩
  rcases List.mem_append.mp htable with htable | htable
  · exact List.mem_append_left _ (htaken table htable i hi)
  · exact List.mem_append_right _ (hclosed table htable i hi)

theorem sum_connectivity (tables : List Table) (relationships : List Relationship) (maxSize : Nat) :
    ((groupTables tables relationships maxSize).map Group.connectivity).sum =
      2 * relationships.countP (·.isBetween tables) := by
  have hconnectivity : (groupTables tables relationships maxSize).map Group.connectivity =
      (groupTables tables relationships maxSize).map fun g =>
        (g.members.map (degree (links tables relationships))).sum := by
    refine List.map_congr_left fun g hg => ?_
    exact Group.connectivity_ofSeeds _ g (mem_groupTables.mp hg)
  calc
    _ = ((groupTables tables relationships maxSize).flatMap fun g =>
          g.members.map (degree (links tables relationships))).sum := by
      rw [hconnectivity, List.flatMap_def, List.sum_flatten, List.map_map]
      rfl
    _ = (((groupTables tables relationships maxSize).flatMap Group.members).map
          (degree (links tables relationships))).sum := by rw [List.map_flatMap]
    _ = ((List.range tables.length).map (degree (links tables relationships))).sum :=
      ((groupTables_members_perm tables relationships maxSize).map _).sum_eq
    _ = _ := by rw [sum_degree fun l hl => lt_of_mem_links hl, length_links]

theorem linked_of_mem_groupTables {maxSize : Nat} :
    ∀ g ∈ groupTables tables relationships maxSize, Group.Linked (links tables relationships) g.members :=
  groupTables_induction (T := fun _ => True) trivial fun _ _ _ _ _ => ⟨Group.linked_grow _ _ _ _ _, trivial⟩

theorem length_members_groupTables {maxSize : Nat} :
    ∀ g ∈ groupTables tables relationships maxSize, g.members.length ≤ max 1 maxSize :=
  groupTables_induction (T := fun _ => True) (P := (·.length ≤ max 1 maxSize)) trivial
    fun _ _ _ _ _ => ⟨Group.length_grow_le (Nat.le_max_left 1 maxSize), trivial⟩

/-- A group is the component of its first member. -/
theorem exists_memberSet_eq_supp {maxSize : Nat}
    (h : ∀ c : (tableGraph tables relationships).ConnectedComponent, c.supp.ncard ≤ max 1 maxSize) {g : Group}
    (hg : g ∈ groupTables tables relationships maxSize) :
    ∃ c : (tableGraph tables relationships).ConnectedComponent, memberSet tables.length g.members = c.supp := by
  obtain ⟨hgrowing, hne⟩ := growing_of_mem_groupTables g hg
  obtain ⟨seed, rest, hmembers⟩ := List.exists_cons_of_ne_nil hne
  have hseed : seed < tables.length := hgrowing.bound seed (hmembers ▸ List.mem_cons_self)
  have hlinked := linked_of_mem_groupTables g hg
  have hclosed := closed_of_mem_groupTables h g hg
  rw [hmembers] at hlinked hclosed ⊢
  exact ⟨_, (memberSet_subset_supp hlinked hseed).antisymm (supp_subset_memberSet hclosed hseed)⟩

theorem memberSets_eq_components {maxSize : Nat}
    (h : ∀ c : (tableGraph tables relationships).ConnectedComponent, c.supp.ncard ≤ max 1 maxSize) :
    {s | ∃ g ∈ groupTables tables relationships maxSize, s = memberSet tables.length g.members} =
      Set.range fun c : (tableGraph tables relationships).ConnectedComponent => c.supp := by
  ext s
  constructor
  · rintro ⟨g, hg, rfl⟩
    obtain ⟨c, hc⟩ := exists_memberSet_eq_supp h hg
    exact ⟨c, hc.symm⟩
  · rintro ⟨c, rfl⟩
    -- every table is in some group, and so is a table of the component
    obtain ⟨i, rfl⟩ := c.exists_rep
    have hi : i.val ∈ (groupTables tables relationships maxSize).flatMap Group.members :=
      (groupTables_members_perm tables relationships maxSize).mem_iff.mpr (List.mem_range.mpr i.isLt)
    obtain ⟨g, hg, hig⟩ := List.mem_flatMap.mp hi
    obtain ⟨c, hc⟩ := exists_memberSet_eq_supp h hg
    have hmem : i ∈ c.supp := hc ▸ hig
    refine ⟨g, hg, ?_⟩
    rw [SimpleGraph.ConnectedComponent.mem_supp_iff] at hmem
    exact (congrArg SimpleGraph.ConnectedComponent.supp hmem).trans hc.symm

theorem pairwise_connectivity (tables : List Table) (relationships : List Relationship) (maxSize : Nat) :
    (groupTables tables relationships maxSize).Pairwise fun g h => h.connectivity ≤ g.connectivity := by
  refine (List.pairwise_mergeSort (fun a b c hab hbc => ?_) (fun a b => ?_) _).imp fun h => of_decide_eq_true h
  · rw [decide_eq_true_eq] at hab hbc ⊢
    exact Nat.le_trans hbc hab
  · rw [Bool.or_eq_true, decide_eq_true_eq, decide_eq_true_eq]
    exact Nat.le_total _ _

end

/-- Groups share out the tables, keep to their size and are connected; where no component is larger than a
group may be they are the components. They come by connectivity, which counts every relationship between two
tables at both ends. -/
theorem groupTables_components (tables : List Table) (relationships : List Relationship) (maxSize : Nat) :
    let groups := groupTables tables relationships maxSize
    let graph := tableGraph tables relationships
    (groups.flatMap Group.members).Perm (List.range tables.length) ∧
    (∀ g ∈ groups, 1 ≤ g.members.length ∧ g.members.length ≤ max 1 maxSize) ∧
    (∀ g ∈ groups, ∀ front i back, g.members = front ++ i :: back → front ≠ [] →
      ∃ j ∈ front, Related tables relationships j i) ∧
    ((∀ c : graph.ConnectedComponent, c.supp.ncard ≤ max 1 maxSize) →
      {s | ∃ g ∈ groups, s = memberSet tables.length g.members} =
        Set.range fun c : graph.ConnectedComponent => c.supp) ∧
    groups.Pairwise (fun g h => h.connectivity ≤ g.connectivity) ∧
    (groups.map Group.connectivity).sum = 2 * relationships.countP (·.isBetween tables) := by
  intro groups graph
  refine ⟨groupTables_members_perm tables relationships maxSize, fun g hg => ⟨?_, length_members_groupTables g hg⟩, ?_,
    memberSets_eq_components, pairwise_connectivity tables relationships maxSize,
    sum_connectivity tables relationships maxSize⟩
  · exact List.length_pos_iff.mpr (growing_of_mem_groupTables g hg).2
  · intro g hg front i back hmembers hfront
    obtain ⟨j, hj, hneighbour⟩ := linked_of_mem_groupTables g hg front i back hmembers hfront
    exact ⟨j, hj, mem_neighbours_links.mp hneighbour⟩

/-- One of the names is declared a second time. -/
def blogTables : List Table :=
  [{ name := "users".toList }, { name := "posts".toList }, { name := "tags".toList }, { name := "users".toList },
   { name := "posts_tags".toList }, { name := "settings".toList }]

/-- Four tables hang together; one of them refers to itself, and one outside refers to a table that is missing. -/
def blogRelationships : List Relationship :=
  [⟨⟨"posts".toList, "user_id".toList⟩, .forward, ⟨"users".toList, "id".toList⟩, none, none, none, .inline⟩,
   ⟨⟨"posts_tags".toList, "post_id".toList⟩, .forward, ⟨"posts".toList, "id".toList⟩, none, none, none, .standalone⟩,
   ⟨⟨"posts_tags".toList, "tag_id".toList⟩, .forward, ⟨"tags".toList, "id".toList⟩, none, none, none, .standalone⟩,
   ⟨⟨"posts".toList, "parent_id".toList⟩, .forward, ⟨"posts".toList, "id".toList⟩, none, none, none, .standalone⟩,
   ⟨⟨"settings".toList, "plan_id".toList⟩, .forward, ⟨"plans".toList, "id".toList⟩, none, none, none, .standalone⟩]

theorem groupTables_components_blog :
    {s | ∃ g ∈ groupTables blogTables blogRelationships 6, s = memberSet blogTables.length g.members} =
      Set.range (fun c : (tableGraph blogTables blogRelationships).ConnectedComponent => c.supp) ∧
    ((groupTables blogTables blogRelationships 6).map Group.connectivity).sum = 6 := by
  obtain ⟨-, -, -, hcomponents, -, hsum⟩ := groupTables_components blogTables blogRelationships 6
  refine ⟨hcomponents fun c => ?_, hsum.trans (by decide +kernel)⟩
  have hle : c.supp.ncard ≤ Nat.card (Fin blogTables.length) := Set.ncard_le_card c.supp
  rwa [Nat.card_fin] at hle

example : (groupTables blogTables blogRelationships 6).map Group.members = [[1, 4, 0, 2], [3], [5]] := by
  cbv

example : (groupTables blogTables blogRelationships 3).map Group.members = [[1, 4, 0], [2], [3], [5]] := by
  cbv

end SchemaDiagram
