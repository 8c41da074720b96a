import SchemaDiagram.Schema.Basic

/-! # Groups of related tables

Tables are grouped by a breadth-first search over their relationships. A group starts at the table
with the most relationships that is in no group yet and takes in its neighbours, those with more
relationships first, until it is full.
-/
namespace SchemaDiagram

/-- Tables by index, in the order they joined the group. -/
structure Group where
  members : List Nat
  /-- The sum of the degrees of the members. -/
  connectivity : Nat
  deriving DecidableEq, Repr

/-- The relationships between two different tables, by the index of the first table of each name. -/
def links (tables : List Table) (relationships : List Relationship) : List (Nat × Nat) :=
  relationships.filterMap fun r => do
    let a ← tables.findIdx? (·.name = r.source.table)
    let b ← tables.findIdx? (·.name = r.target.table)
    if a = b then none else some (a, b)

/-- How many ends of links a table has. -/
def degree (links : List (Nat × Nat)) (table : Nat) : Nat :=
  links.countP (·.1 = table) + links.countP (·.2 = table)

/-- The order of visits: higher degree first, then earlier declaration. -/
def visitsBefore (links : List (Nat × Nat)) (a b : Nat) : Bool :=
  degree links b < degree links a || degree links a == degree links b && a ≤ b

def inVisitOrder (links : List (Nat × Nat)) (tables : List Nat) : List Nat :=
  tables.mergeSort (visitsBefore links)

/-- The tables linked to a table, each once, in the order of visits. -/
def neighbours (links : List (Nat × Nat)) (table : Nat) : List Nat :=
  (inVisitOrder links (links.filterMap fun (a, b) =>
    if a = table then some b else if b = table then some a else none)).eraseDups

namespace Group

/-- Takes a table into a group that is not full, unless the table is in this group or in another. -/
def takeIn (maxSize : Nat) (taken members : List Nat) (table : Nat) : List Nat :=
  if members.length < maxSize ∧ table ∉ taken ∧ table ∉ members then members ++ [table] else members

/-- Visits the members from index `next` on, each in the order it joined, and takes in their
neighbours; `fuel` bounds the number of visits. -/
def grow (links : List (Nat × Nat)) (maxSize : Nat) (taken : List Nat) : Nat → Nat → List Nat → List Nat
  | 0, _, members => members
  | fuel + 1, next, members =>
    match members[next]? with
    | none => members
    | some table =>
      grow links maxSize taken fuel (next + 1)
        ((neighbours links table).foldl (takeIn maxSize taken) members)

/-- The groups that start at the seeds, in their order; a seed in an earlier group starts none. -/
def ofSeeds (links : List (Nat × Nat)) (maxSize count : Nat) : List Nat → List Nat → List Group
  | _, [] => []
  | taken, seed :: seeds =>
    if seed ∈ taken then ofSeeds links maxSize count taken seeds
    else
      let members := grow links maxSize taken count 0 [seed]
      ⟨members, members.foldl (fun total table => total + degree links table) 0⟩ ::
        ofSeeds links maxSize count (taken ++ members) seeds

end Group

/-- The groups of the tables, with more connections first. A group has at least one table. -/
def groupTables (tables : List Table) (relationships : List Relationship) (maxSize : Nat) : List Group :=
  let links := links tables relationships
  let seeds := inVisitOrder links (List.range tables.length)
  (Group.ofSeeds links (max 1 maxSize) tables.length [] seeds).mergeSort
    fun a b => b.connectivity ≤ a.connectivity

end SchemaDiagram
