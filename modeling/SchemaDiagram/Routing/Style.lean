import SchemaDiagram.Geometry.Shape
import SchemaDiagram.Text.Blank
import SchemaDiagram.Text.LowerCase

/-! # Routing styles and measures -/
namespace SchemaDiagram

inductive RoutingStyle
  | straight
  | curved
  | orthogonal
  deriving DecidableEq, Repr

namespace RoutingStyle

def name : RoutingStyle → Text
  | straight => "straight".toList
  | curved => "curved".toList
  | orthogonal => "orthogonal".toList

/-- The style with exactly this name. -/
def ofName? (name : Text) : Option RoutingStyle := [straight, curved, orthogonal].find? (·.name = name)

/-- The style of a name in capitals or small letters, with or without blanks around it. -/
def read? (t : Text) : Option RoutingStyle := ofName? (Text.lower (Text.trim t))

@[simp] theorem ofName?_name (s : RoutingStyle) : ofName? s.name = some s := by
  cases s <;> rfl

end RoutingStyle

/-- How relationships are drawn. -/
structure RoutingOptions (α : Type) where
  style : RoutingStyle
  /-- All coordinates of edges are multiplied by this. -/
  scale : α
  /-- How far the controls of a curve reach, as a part of the distance of its ends. -/
  curveFactor : α
  maxControlDistance : α
  cornerRadius : α
  /-- How far a lane beside the tables is from the outermost end. -/
  laneOffset : α
  /-- The shortest way an edge goes straight on from a table. -/
  stub : α
  arrowLength : α
  arrowWidth : α
  deriving DecidableEq, Repr

def RoutingOptions.standard {α : Type} [Coordinate α] : RoutingOptions α where
  style := .curved
  scale := 1
  curveFactor := 4 / 10
  maxControlDistance := 150
  cornerRadius := 12
  laneOffset := 30
  stub := 20
  arrowLength := 10
  arrowWidth := 8

end SchemaDiagram
