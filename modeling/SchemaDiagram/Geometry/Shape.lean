import SchemaDiagram.Geometry.Coordinate

/-! # Points, sizes and rectangles

The x axis points right and the y axis down.
-/
namespace SchemaDiagram

variable {α : Type}

@[ext] structure Point (α : Type) where
  x : α
  y : α
  deriving DecidableEq, Repr

structure Size (α : Type) where
  width : α
  height : α
  deriving DecidableEq, Repr

/-- A rectangle with its sides along the axes; `origin` is its top left corner. -/
structure Rect (α : Type) where
  origin : Point α
  size : Size α
  deriving DecidableEq, Repr

variable [Coordinate α]

namespace Point

def zero : Point α := ⟨0, 0⟩

instance : Add (Point α) := ⟨fun p q => ⟨p.x + q.x, p.y + q.y⟩⟩

instance : Sub (Point α) := ⟨fun p q => ⟨p.x - q.x, p.y - q.y⟩⟩

def scale (p : Point α) (factor : α) : Point α := ⟨p.x * factor, p.y * factor⟩

def length (p : Point α) : α := Coordinate.sqrt (p.x * p.x + p.y * p.y)

def distance (p q : Point α) : α := (q - p).length

/-- The vector of length one in the same direction; `fallback` for one that is next to zero. -/
def normalizeOr (p fallback : Point α) : Point α :=
  let length := p.length
  if length < Coordinate.tenth 9 then fallback else ⟨p.x / length, p.y / length⟩

/-- The vector turned by a right angle. -/
def perpendicular (p : Point α) : Point α := ⟨-p.y, p.x⟩

end Point

namespace Size

def zero : Size α := ⟨0, 0⟩

def isEmpty (s : Size α) : Bool := s.width ≤ 0 || s.height ≤ 0

end Size

namespace Rect

def right (r : Rect α) : α := r.origin.x + r.size.width

def bottom (r : Rect α) : α := r.origin.y + r.size.height

def center (r : Rect α) : Point α := ⟨r.origin.x + r.size.width / 2, r.origin.y + r.size.height / 2⟩

/-- The insides share a point; rectangles that only touch do not overlap. -/
def Overlaps (r s : Rect α) : Prop :=
  r.origin.x < s.right ∧ s.origin.x < r.right ∧ r.origin.y < s.bottom ∧ s.origin.y < r.bottom

instance (r s : Rect α) : Decidable (r.Overlaps s) := inferInstanceAs (Decidable (_ ∧ _))

end Rect
end SchemaDiagram
