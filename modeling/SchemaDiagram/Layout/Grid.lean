import SchemaDiagram.Geometry.Shape

/-! # Grids

Tables stand in the cells of a grid. All cells are as large as the largest table.
-/
namespace SchemaDiagram

/-- The measures of a layout. -/
structure LayoutOptions (α : Type) where
  /-- The gap between the columns of a grid. -/
  spacingX : α
  /-- The gap between the rows of a grid. -/
  spacingY : α
  canvasWidth : α
  canvasHeight : α
  margin : α
  /-- The most tables that are grouped together. -/
  maxGroupSize : Nat
  /-- The gap between groups. -/
  groupGap : α
  deriving DecidableEq, Repr

variable {α : Type} [Coordinate α]

def LayoutOptions.standard : LayoutOptions α where
  spacingX := 80
  spacingY := 60
  canvasWidth := 1200
  canvasHeight := 800
  margin := 40
  maxGroupSize := 6
  groupGap := 120

/-- Up to three tables stand side by side, more of them in four columns. -/
def columnCount (count : Nat) : Nat := if count ≤ 3 then count else 4

structure Grid (α : Type) where
  columns : Nat
  rows : Nat
  cell : Size α
  spacingX : α
  spacingY : α

namespace Grid

/-- The grid for tables of the given sizes. A negative gap counts as none. -/
def ofSizes (o : LayoutOptions α) (sizes : List (Size α)) : Grid α :=
  let columns := columnCount sizes.length
  { columns
    rows := (sizes.length + columns - 1) / columns
    cell := ⟨Coordinate.largest (sizes.map Size.width), Coordinate.largest (sizes.map Size.height)⟩
    spacingX := Coordinate.larger o.spacingX 0
    spacingY := Coordinate.larger o.spacingY 0 }

/-- The top left corner of a cell, from that of the grid; cells are counted row by row. -/
def corner (g : Grid α) (index : Nat) : Point α :=
  ⟨Coordinate.ofNat (index % g.columns) * (g.cell.width + g.spacingX),
   Coordinate.ofNat (index / g.columns) * (g.cell.height + g.spacingY)⟩

/-- The size of the whole grid; one without columns has none. -/
def extent (g : Grid α) : Size α :=
  if g.columns = 0 then Size.zero
  else
    ⟨Coordinate.ofNat g.columns * g.cell.width + Coordinate.ofNat (g.columns - 1) * g.spacingX,
     Coordinate.ofNat g.rows * g.cell.height + Coordinate.ofNat (g.rows - 1) * g.spacingY⟩

/-- Where the grid of new tables starts: in the middle of the canvas from left to right, and under
the lowest edge `below`, or without one in the middle from top to bottom too. The canvas grows with
the grid. -/
def start (g : Grid α) (o : LayoutOptions α) (below : Option α) : Point α :=
  let extent := g.extent
  let width := Coordinate.larger o.canvasWidth (extent.width + 2 * o.margin)
  let height := Coordinate.larger o.canvasHeight (extent.height + 2 * o.margin)
  ⟨(width - extent.width) / 2,
   match below with
   | some bottom => bottom + Coordinate.larger o.spacingY 0
   | none => (height - extent.height) / 2⟩

/-- The first `count` cells of a grid that starts at `origin`. -/
def corners (g : Grid α) (origin : Point α) (count : Nat) : List (Point α) :=
  (List.range count).map fun index => origin + g.corner index

end Grid
end SchemaDiagram
