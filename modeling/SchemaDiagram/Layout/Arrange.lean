import SchemaDiagram.Layout.Metrics
import SchemaDiagram.Layout.Placement
import SchemaDiagram.Layout.Grid
import SchemaDiagram.Layout.Group

/-! # Arranging tables

New tables are placed on a grid beside those that have a place; on request all tables are placed
anew, related ones together.
-/
namespace SchemaDiagram

variable {α : Type} [Coordinate α]

/-- A name with the size of its table. -/
abbrev Sized (α : Type) := Text × Size α

/-- The size of the first table of every name. -/
def measureTables (m : Metrics α) (tables : List Table) : Except EmptyRange (List (Sized α)) :=
  (firstDeclarations tables).mapM fun t => do return (t.name, ← m.tableSize t)

/-- The names with places in a grid that starts at `origin`. -/
def Grid.fill (g : Grid α) (origin : Point α) (sized : List (Sized α)) : List (Text × Placement α) :=
  List.zipWith (fun (name, size) position => (name, ⟨position, size⟩)) sized (g.corners origin sized.length)

/-! ## New tables -/

/-- The names that have a place keep it and take their new size; the others follow on a grid. -/
def placeNew (o : LayoutOptions α) (existing : Layout α) (sized : List (Sized α)) : Layout α :=
  let kept : Layout α :=
    ⟨sized.filterMap fun (name, size) => (existing.get? name).map fun p => (name, ⟨p.position, size⟩)⟩
  let fresh := sized.filter fun (name, _) => !existing.contains name
  let grid := Grid.ofSizes o (fresh.map Prod.snd)
  ⟨kept.entries ++ grid.fill (grid.start o kept.bottom?) fresh⟩

/-- The layout of the tables: every name once, at the place it has in `existing` if it has one. -/
def layoutTables (m : Metrics α) (o : LayoutOptions α) (tables : List Table) (existing : Layout α) :
    Except EmptyRange (Layout α) := do
  return placeNew o existing (← measureTables m tables)

/-! ## Placing all tables anew -/

/-- Where the next group starts, how high the current row of groups is, and what is placed. -/
structure Packing (α : Type) where
  cursor : Point α
  rowHeight : α
  placed : List (Text × Placement α)

namespace Packing

def start (o : LayoutOptions α) : Packing α := ⟨⟨o.margin, o.margin⟩, 0, []⟩

def gap (o : LayoutOptions α) : α := Coordinate.larger o.groupGap 0

/-- Starts a new row, unless the group fits into the current one or would be its first. -/
def wrap (o : LayoutOptions α) (p : Packing α) (extent : Size α) : Packing α :=
  if o.margin < p.cursor.x ∧ o.canvasWidth - o.margin < p.cursor.x + extent.width then
    { p with cursor := ⟨o.margin, p.cursor.y + p.rowHeight + gap o⟩, rowHeight := 0 }
  else p

/-- Places a group as a grid of its own. -/
def addGroup (o : LayoutOptions α) (p : Packing α) (group : List (Sized α)) : Packing α :=
  let grid := Grid.ofSizes o (group.map Prod.snd)
  let extent := grid.extent
  let p := p.wrap o extent
  { cursor := ⟨p.cursor.x + (extent.width + gap o), p.cursor.y⟩
    rowHeight := Coordinate.larger p.rowHeight extent.height
    placed := p.placed ++ grid.fill p.cursor group }

end Packing

/-- The layout with related tables together, whatever places they had. -/
def autoLayout (m : Metrics α) (o : LayoutOptions α) (tables : List Table)
    (relationships : List Relationship) : Except EmptyRange (Layout α) := do
  let sized ← measureTables m tables
  let groups := groupTables (firstDeclarations tables) relationships o.maxGroupSize
  let packing := groups.foldl (fun p g => p.addGroup o (g.members.filterMap (sized[·]?))) (Packing.start o)
  return ⟨packing.placed⟩

end SchemaDiagram
