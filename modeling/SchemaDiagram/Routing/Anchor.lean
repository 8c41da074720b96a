import SchemaDiagram.Geometry.Shape

/-! # Anchors

An edge starts and ends beside the row of a field, at the left or the right edge of its table.
-/
namespace SchemaDiagram

inductive Side
  | left
  | right
  deriving DecidableEq, Repr

/-- The row of a field: the box of its table, and how far below the top the row's middle is. -/
structure RowEnd (α : Type) where
  rect : Rect α
  offset : α

/-- Where an edge meets its tables; `looped` if both ends are at one table. -/
structure Anchors (α : Type) where
  source : Point α
  target : Point α
  sourceSide : Side
  targetSide : Side
  looped : Bool
  deriving DecidableEq, Repr

variable {α : Type} [Coordinate α]

/-- The horizontal direction away from the table. -/
def Side.outward : Side → α
  | .left => -1
  | .right => 1

/-- The place of the row at a side of its table; a row outside the box is moved to its border. -/
def RowEnd.anchor (e : RowEnd α) (side : Side) : Except EmptyRange (Point α) := do
  let offset ← Coordinate.clamp e.offset 0 e.rect.size.height
  let x := match side with
    | .left => e.rect.origin.x
    | .right => e.rect.right
  return ⟨x, e.rect.origin.y + offset⟩

/-- Tables that are further apart sideways are joined at the sides that face each other; tables one
above the other are joined at their left sides, so that the edge runs beside them. -/
def facingSides (source target : Rect α) : Side × Side :=
  let delta := target.center - source.center
  if Coordinate.magnitude delta.y ≤ Coordinate.magnitude delta.x then
    if 0 ≤ delta.x then (.right, .left) else (.left, .right)
  else (.left, .left)

/-- The anchors between two rows. An edge from a table to itself leaves and enters at the right. -/
def chooseAnchors (source target : RowEnd α) (looped : Bool) : Except EmptyRange (Anchors α) := do
  let (sourceSide, targetSide) := if looped then (.right, .right) else facingSides source.rect target.rect
  let start ← source.anchor sourceSide
  let stop ← target.anchor targetSide
  return ⟨start, stop, sourceSide, targetSide, looped⟩

end SchemaDiagram
