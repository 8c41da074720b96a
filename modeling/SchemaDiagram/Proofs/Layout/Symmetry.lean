import Mathlib.Data.Sym.Sym2
import SchemaDiagram.Layout.Arrange
import SchemaDiagram.Proofs.Geometry.Exact
import SchemaDiagram.Proofs.Layout.Group

/-! # Groups do not depend on how relationships are written

What counts is how often two tables are related, not which of them a relationship is written from nor the
order of the relationships. Degrees and neighbours are read off the unordered pairs of related tables, and a
search visits neighbours in an order that leaves no two of them equal.
-/
namespace SchemaDiagram

/-- The two tables that a relationship is between, without a first and a second. -/
def Relationship.tables (r : Relationship) : Sym2 Text := s(r.source.table, r.target.table)

/-- The same pairs of tables are related equally often. -/
def RelateAlike (rs ss : List Relationship) : Prop :=
  (rs.map Relationship.tables).Perm (ss.map Relationship.tables)

/-! ## Links without a direction -/

def linkEnds (l : Nat × Nat) : Sym2 Nat := s(l.1, l.2)

def LinkAlike (ls ks : List (Nat × Nat)) : Prop := (ls.map linkEnds).Perm (ks.map linkEnds)

/-- The link between the tables of two names. -/
def linkOf (tables : List Table) : Sym2 Text → Option (Sym2 Nat) :=
  Sym2.lift
    ⟨fun x y => (tables.findIdx? (·.name = x)).bind fun a => (tables.findIdx? (·.name = y)).bind fun b =>
      if a = b then none else some s(a, b), by
      intro x y
      dsimp only
      cases tables.findIdx? (·.name = x) with
      | none => cases tables.findIdx? (·.name = y) <;> rfl
      | some a =>
          cases tables.findIdx? (·.name = y) with
          | none => rfl
          | some b => simp only [Option.bind_some, eq_comm (a := a), Sym2.eq_swap (a := a)]⟩

theorem map_linkEnds_links (tables : List Table) (rs : List Relationship) :
    (links tables rs).map linkEnds = (rs.map Relationship.tables).filterMap (linkOf tables) := by
  rw [links, List.map_filterMap, List.filterMap_map]
  refine List.filterMap_congr fun r _ => ?_
  have hlink : linkOf tables r.tables =
      (tables.findIdx? (·.name = r.source.table)).bind fun a =>
        (tables.findIdx? (·.name = r.target.table)).bind fun b => if a = b then none else some s(a, b) := rfl
  rw [Function.comp, hlink]
  cases tables.findIdx? (·.name = r.source.table) with
  | none => rfl
  | some a =>
      cases tables.findIdx? (·.name = r.target.table) with
      | none => rfl
      | some b =>
          simp only [Option.bind_eq_bind, Option.bind_some]
          split <;> rfl

theorem RelateAlike.links {rs ss : List Relationship} (h : RelateAlike rs ss) (tables : List Table) :
    LinkAlike (links tables rs) (links tables ss) := by
  rw [LinkAlike, map_linkEnds_links, map_linkEnds_links]
  exact h.filterMap _

/-- The other end of a link that ends at a table. -/
def otherEnd (table : Nat) : Sym2 Nat → Option Nat :=
  Sym2.lift
    ⟨fun a b => if a = table then some b else if b = table then some a else none, by
      intro a b
      by_cases ha : a = table <;> by_cases hb : b = table <;> simp [ha, hb]⟩

/-- A table has as many links as other ends. -/
theorem degree_eq_length {ls : List (Nat × Nat)} (hls : ∀ l ∈ ls, l.1 ≠ l.2) (table : Nat) :
    degree ls table = ((ls.map linkEnds).filterMap (otherEnd table)).length := by
  induction ls with
  | nil => rfl
  | cons l rest ih =>
      have hne := hls l List.mem_cons_self
      have hrest := ih fun l hl => hls l (List.mem_cons_of_mem _ hl)
      have hother : otherEnd table (linkEnds l) =
          if l.1 = table then some l.2 else if l.2 = table then some l.1 else none := rfl
      simp only [degree, List.countP_cons, List.map_cons, List.filterMap_cons, decide_eq_true_eq, hother] at hrest ⊢
      by_cases h₁ : l.1 = table
      · have h₂ : l.2 ≠ table := fun h₂ => hne (h₁.trans h₂.symm)
        simp only [h₁, h₂, ↓reduceIte, List.length_cons]
        omega
      · by_cases h₂ : l.2 = table
        · simp only [h₁, h₂, ↓reduceIte, List.length_cons]
          omega
        · simp only [h₁, h₂, ↓reduceIte]
          omega

/-! ## The order of visits -/

section

variable {ls ks : List (Nat × Nat)}

theorem visitsBefore_iff {a b : Nat} :
    visitsBefore ls a b = true ↔ degree ls b < degree ls a ∨ degree ls a = degree ls b ∧ a ≤ b := by
  simp [visitsBefore]

theorem visitsBefore_congr (hdegree : degree ls = degree ks) : visitsBefore ls = visitsBefore ks := by
  funext a b
  rw [visitsBefore, hdegree, visitsBefore]

theorem pairwise_inVisitOrder (ls : List (Nat × Nat)) (tables : List Nat) :
    (inVisitOrder ls tables).Pairwise fun a b => visitsBefore ls a b = true := by
  apply List.pairwise_mergeSort
  · intro a b c hab hbc
    rw [visitsBefore_iff] at hab hbc ⊢
    omega
  · intro a b
    rw [Bool.or_eq_true, visitsBefore_iff, visitsBefore_iff]
    omega

/-- No two tables come at the same place in the order. -/
theorem inVisitOrder_congr (hdegree : degree ls = degree ks) {tables tables' : List Nat}
    (h : tables.Perm tables') : inVisitOrder ls tables = inVisitOrder ks tables' := by
  have hperm : (inVisitOrder ls tables).Perm (inVisitOrder ls tables') :=
    (List.mergeSort_perm _ _).trans (h.trans (List.mergeSort_perm _ _).symm)
  have heq : inVisitOrder ls tables = inVisitOrder ls tables' := by
    refine hperm.eq_of_pairwise (fun a b _ _ hab hba => ?_) (pairwise_inVisitOrder ls _) (pairwise_inVisitOrder ls _)
    rw [visitsBefore_iff] at hab hba
    omega
  rw [heq, inVisitOrder, visitsBefore_congr hdegree, inVisitOrder]

theorem LinkAlike.degree_eq (h : LinkAlike ls ks) (hls : ∀ l ∈ ls, l.1 ≠ l.2) (hks : ∀ l ∈ ks, l.1 ≠ l.2) :
    degree ls = degree ks := by
  funext table
  rw [degree_eq_length hls, degree_eq_length hks]
  exact (h.filterMap _).length_eq

theorem LinkAlike.neighbours_eq (h : LinkAlike ls ks) (hdegree : degree ls = degree ks) :
    neighbours ls = neighbours ks := by
  funext table
  have hends : ∀ ls, neighbours ls table =
      (inVisitOrder ls ((ls.map linkEnds).filterMap (otherEnd table))).eraseDups := by
    intro ls
    rw [List.filterMap_map]
    rfl
  rw [hends, hends, inVisitOrder_congr hdegree (h.filterMap _)]

/-! ## The search -/

namespace Group

theorem grow_congr (h : neighbours ls = neighbours ks) (maxSize : Nat) (taken : List Nat) (fuel next : Nat)
    (members : List Nat) : grow ls maxSize taken fuel next members = grow ks maxSize taken fuel next members := by
  induction fuel generalizing next members with
  | zero => rfl
  | succ fuel ih =>
      simp only [grow]
      cases members[next]? with
      | none => rfl
      | some table => simp only [h, ih]

theorem ofSeeds_congr (hneighbours : neighbours ls = neighbours ks) (hdegree : degree ls = degree ks)
    (maxSize count : Nat) (taken seeds : List Nat) :
    ofSeeds ls maxSize count taken seeds = ofSeeds ks maxSize count taken seeds := by
  induction seeds generalizing taken with
  | nil => rfl
  | cons seed rest ih => simp only [ofSeeds, grow_congr hneighbours, hdegree, ih]

end Group

end

/-- Tables are grouped and arranged in the same way whatever the order of the relationships, whichever table
each of them is written from, and whatever else they say. -/
theorem autoLayout_relateAlike {rs ss : List Relationship} (h : RelateAlike rs ss) :
    (∀ (tables : List Table) (maxSize : Nat), groupTables tables rs maxSize = groupTables tables ss maxSize) ∧
    ∀ {α : Type} [Coordinate α] (m : Metrics α) (o : LayoutOptions α) (tables : List Table),
      autoLayout m o tables rs = autoLayout m o tables ss := by
  have hgroups : ∀ (tables : List Table) (maxSize : Nat),
      groupTables tables rs maxSize = groupTables tables ss maxSize := by
    intro tables maxSize
    have hlinks := h.links tables
    have hdegree := hlinks.degree_eq (fun _ hl => (mem_links.mp hl).1) (fun _ hl => (mem_links.mp hl).1)
    have hneighbours := hlinks.neighbours_eq hdegree
    have hseeds := inVisitOrder_congr hdegree (.refl (List.range tables.length))
    simp only [groupTables, hseeds, Group.ofSeeds_congr hneighbours hdegree]
  refine ⟨hgroups, fun m o tables => ?_⟩
  simp only [autoLayout, hgroups]

/-- Three tables in a chain, and two relationships that count for nothing. -/
def chain : List Relationship :=
  [⟨⟨"a".toList, "b_id".toList⟩, .forward, ⟨"b".toList, "id".toList⟩, none, none, none, .inline⟩,
   ⟨⟨"b".toList, "c_id".toList⟩, .forward, ⟨"c".toList, "id".toList⟩, none, none, none, .inline⟩,
   ⟨⟨"a".toList, "x_id".toList⟩, .forward, ⟨"x".toList, "id".toList⟩, none, none, none, .inline⟩,
   ⟨⟨"a".toList, "up_id".toList⟩, .forward, ⟨"a".toList, "id".toList⟩, none, none, none, .inline⟩]

/-- The chain written backwards, with other fields, kinds and actions. -/
def turnedChain : List Relationship :=
  [⟨⟨"x".toList, "key".toList⟩, .oneToOne, ⟨"a".toList, "x".toList⟩, "r".toList, none, none, .standalone⟩,
   ⟨⟨"c".toList, "key".toList⟩, .backward, ⟨"b".toList, "c".toList⟩, none, "cascade".toList, none, .standalone⟩,
   ⟨⟨"a".toList, "key".toList⟩, .manyToMany, ⟨"a".toList, "a".toList⟩, none, none, none, .standalone⟩,
   ⟨⟨"b".toList, "key".toList⟩, .backward, ⟨"a".toList, "b".toList⟩, none, none, none, .standalone⟩]

theorem autoLayout_relateAlike_chain :
    RelateAlike chain turnedChain ∧
    (∀ (tables : List Table) (maxSize : Nat), groupTables tables chain maxSize = groupTables tables turnedChain maxSize) ∧
    ∀ tables : List Table, autoLayout (Metrics.standard : Metrics ℚ) LayoutOptions.standard tables chain =
      autoLayout Metrics.standard LayoutOptions.standard tables turnedChain := by
  have h : RelateAlike chain turnedChain := by
    rw [RelateAlike]
    decide +kernel
  exact ⟨h, (autoLayout_relateAlike h).1, (autoLayout_relateAlike h).2 _ _⟩

end SchemaDiagram
