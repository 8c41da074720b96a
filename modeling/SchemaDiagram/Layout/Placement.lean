import SchemaDiagram.Geometry.Shape
import SchemaDiagram.Schema.Basic

/-! # Placements

Where tables stand. A layout gives every name one placement, in the order the names came in; tables
that share a name share its placement.
-/
namespace SchemaDiagram

structure Placement (α : Type) where
  position : Point α
  size : Size α
  deriving DecidableEq, Repr

def Placement.rect {α : Type} (p : Placement α) : Rect α := ⟨p.position, p.size⟩

/-- A table of a schema at its place in the diagram. -/
structure PlacedTable (α : Type) where
  table : Table
  position : Point α
  size : Size α
  deriving DecidableEq, Repr

/-- A table before it is placed. -/
def PlacedTable.unplaced {α : Type} [Coordinate α] (t : Table) : PlacedTable α := ⟨t, Point.zero, Size.zero⟩

structure Layout (α : Type) where
  entries : List (Text × Placement α)
  deriving DecidableEq, Repr

namespace Layout

variable {α : Type}

def empty : Layout α := ⟨[]⟩

def names (l : Layout α) : List Text := l.entries.map Prod.fst

def get? (l : Layout α) (name : Text) : Option (Placement α) := (l.entries.find? (·.1 = name)).map Prod.snd

def contains (l : Layout α) (name : Text) : Bool := l.entries.any (·.1 = name)

/-- Replaces what a name has; all names keep their place in the order. -/
def update (l : Layout α) (name : Text) (f : Placement α → Placement α) : Layout α :=
  ⟨l.entries.map fun (n, p) => if n = name then (n, f p) else (n, p)⟩

/-- Places a name; a new name comes last. -/
def insert (l : Layout α) (name : Text) (p : Placement α) : Layout α :=
  if l.contains name then l.update name fun _ => p else ⟨l.entries ++ [(name, p)]⟩

def move (l : Layout α) (name : Text) (position : Point α) : Layout α :=
  l.update name fun p => { p with position }

def retain (l : Layout α) (keep : Text → Bool) : Layout α := ⟨l.entries.filter fun (name, _) => keep name⟩

/-- The table at the place its name has, or where it was if its name has none. -/
def place (l : Layout α) (t : PlacedTable α) : PlacedTable α :=
  match l.get? t.table.name with
  | some p => { t with position := p.position, size := p.size }
  | none => t

variable [Coordinate α]

/-- The lowest edge of any placed table. -/
def bottom? (l : Layout α) : Option α :=
  match l.entries with
  | [] => none
  | (_, first) :: rest =>
    some (rest.foldl (fun low (_, p) => Coordinate.larger low p.rect.bottom) first.rect.bottom)

end Layout
end SchemaDiagram
