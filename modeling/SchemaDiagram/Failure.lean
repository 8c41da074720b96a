import SchemaDiagram.Decimal.Written
import SchemaDiagram.Geometry.Coordinate

/-! # Failures

Why a request is refused. A malformed schema text is no failure; it is reported in diagnostics.
-/
namespace SchemaDiagram

inductive Failure (α : Type)
  /-- The options are no document of the expected form. -/
  | malformedOptions
  | unknownStyle (name : Text)
  | unknownTable (name : Text)
  | invalidScale (scale : α)
  /-- A value could not be kept between its bounds. -/
  | emptyRange
  deriving DecidableEq, Repr

namespace Failure

def message : Failure Float → String
  | malformedOptions => "Invalid configuration"
  | unknownStyle name =>
    "Unknown routing style: " ++ String.ofList name ++ " (expected straight, curved or orthogonal)"
  | unknownTable name => "Unknown table: " ++ String.ofList name
  | invalidScale scale =>
    "Scale must be a positive finite number, got " ++ String.ofList (NumberStyle.plain.write scale)
  | emptyRange => "Empty range"

variable {α : Type}

/-- A computation that fails on an empty range only. -/
def ofGeometry {β : Type} : Except EmptyRange β → Except (Failure α) β
  | .ok b => .ok b
  | .error .emptyRange => .error .emptyRange

/-- A scale has to be finite and positive. -/
def checkScale [Coordinate α] (scale : α) : Except (Failure α) Unit :=
  if Coordinate.isFinite scale ∧ 0 < scale then .ok () else .error (.invalidScale scale)

end Failure
end SchemaDiagram
