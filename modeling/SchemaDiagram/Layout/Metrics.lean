import SchemaDiagram.Geometry.Shape
import SchemaDiagram.Schema.Basic
import SchemaDiagram.Text.CellWidth

/-! # Sizes of tables

A table is drawn as a header with its name and a row for every field.
-/
namespace SchemaDiagram

/-- The measures of a table's box. -/
structure Metrics (α : Type) where
  charWidth : α
  headerHeight : α
  rowHeight : α
  paddingX : α
  minWidth : α
  maxWidth : α
  minHeight : α
  maxHeight : α
  deriving DecidableEq, Repr

namespace Metrics

variable {α : Type} [Coordinate α]

def standard : Metrics α where
  charWidth := 8
  headerHeight := 36
  rowHeight := 24
  paddingX := 12
  minWidth := 180
  maxWidth := 360
  minHeight := 60
  maxHeight := 600

def textWidth (m : Metrics α) (t : Text) : α := Coordinate.ofNat t.cells * m.charWidth

/-- The width of a row: the name and the type of the field with three characters between them. -/
def rowWidth (m : Metrics α) (f : TableField) : α :=
  m.textWidth f.name + m.textWidth f.dataType + m.charWidth * 3

/-- The width that the name and the rows of a table ask for. -/
def naturalWidth (m : Metrics α) (t : Table) : α :=
  Coordinate.larger (m.textWidth t.name) (Coordinate.largest (t.fields.map m.rowWidth)) + m.paddingX * 2

/-- The height that the rows of a table ask for. -/
def naturalHeight (m : Metrics α) (t : Table) : α :=
  Coordinate.ofNat t.fields.length * m.rowHeight + m.headerHeight

/-- The size of a table, kept between the smallest and the largest one. A smallest size that is
larger than the largest one wins. -/
def tableSize (m : Metrics α) (t : Table) : Except EmptyRange (Size α) := do
  let width ← Coordinate.clamp (m.naturalWidth t) m.minWidth (Coordinate.larger m.maxWidth m.minWidth)
  let height ← Coordinate.clamp (m.naturalHeight t) m.minHeight (Coordinate.larger m.maxHeight m.minHeight)
  return ⟨width, height⟩

/-- How far below the top of its table the middle of a field's row is. -/
def rowCenter (m : Metrics α) (index : Nat) : α :=
  m.headerHeight + Coordinate.ofNat index * m.rowHeight + m.rowHeight / 2

end Metrics
end SchemaDiagram
