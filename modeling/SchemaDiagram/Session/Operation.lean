import SchemaDiagram.Session.Diagram
import SchemaDiagram.Picture.Drawing

/-! # Sessions

An editor works on a diagram step by step. A step that fails leaves the diagram as it was.
-/
namespace SchemaDiagram

inductive Operation (α : Type)
  | update (text : Text)
  | move (name : Text) (position : Point α)
  /-- The style is given by its name. -/
  | setStyle (name : Text)
  | setScale (scale : α)
  | arrange
  deriving DecidableEq, Repr

namespace Diagram

variable {α : Type} [Coordinate α]

/-- The diagram after an operation. -/
def apply (d : Diagram α) : Operation α → Except (Failure α) (Diagram α)
  | .update text => d.update text
  | .move name position => d.moveTable name position
  | .setStyle name =>
    match RoutingStyle.read? name with
    | some style => d.setStyle style
    | none => .error (.unknownStyle name)
  | .setScale scale => d.setScale scale
  | .arrange => d.arrange

/-- The diagram after an operation, or as it was if the operation fails. -/
def step (d : Diagram α) (operation : Operation α) : Diagram α :=
  match d.apply operation with
  | .ok next => next
  | .error _ => d

def run (d : Diagram α) (operations : List (Operation α)) : Diagram α := operations.foldl step d

variable [Written α]

/-- The picture of the current snapshot. -/
def picture (d : Diagram α) : Except (Failure α) Text :=
  Failure.ofGeometry (draw d.options.metrics d.snapshot.tables d.snapshot.edges d.snapshot.scale)

end Diagram

/-- The picture of a text, in the style of a name or else in the style of the options. -/
def pictureOfText {α : Type} [Coordinate α] [Written α] (o : Options α) (text : Text) (style : Option Text) :
    Except (Failure α) Text := do
  let d ← (Diagram.new o).update text
  let d ← match style with
    | some name => d.apply (.setStyle name)
    | none => .ok d
  d.picture

end SchemaDiagram
