import SchemaDiagram.Check.Validation
import SchemaDiagram.Schema.Extract
import SchemaDiagram.Layout.Arrange
import SchemaDiagram.Routing.Edge
import SchemaDiagram.Options.Basic

/-! # Diagrams

A diagram is what an editor shows of the current text: its diagnostics, its schema, where the tables
stand, and the edges between them.
-/
namespace SchemaDiagram

/-- Tables are placed in units of the diagram; edges are multiplied by `scale`. -/
structure Snapshot (α : Type) where
  report : Report
  schema : Schema
  /-- The tables of the schema, each where the layout has its name. -/
  tables : List (PlacedTable α)
  layout : Layout α
  edges : List (Edge α)
  style : RoutingStyle
  scale : α
  deriving DecidableEq, Repr

structure Diagram (α : Type) where
  options : Options α
  text : Text
  snapshot : Snapshot α
  deriving DecidableEq, Repr

namespace Diagram

variable {α : Type} [Coordinate α]

/-- The diagram before the first text. -/
def new (o : Options α) : Diagram α where
  options := o
  text := []
  snapshot := {
    report := ⟨[]⟩
    schema := {}
    tables := []
    layout := .empty
    edges := []
    style := o.routing.style
    scale := o.routing.scale }

/-- The diagram with the edges that go with the rest of its snapshot. -/
def reroute (d : Diagram α) : Except (Failure α) (Diagram α) := do
  let s := d.snapshot
  let edges ← Failure.ofGeometry <|
    routeEdges d.options.metrics d.options.routing s.style s.scale s.tables s.schema.relationships
  return { d with snapshot := { s with edges } }

/-- Takes a new text. Tables keep the place their name has; names that are gone are forgotten, and
only tables with a new name are placed. -/
def update (d : Diagram α) (text : Text) : Except (Failure α) (Diagram α) := do
  let report := validate text
  let schema := Schema.ofText text
  let prior := d.snapshot.layout.retain fun name => schema.tables.any (·.name = name)
  let layout ← Failure.ofGeometry <| layoutTables d.options.metrics d.options.layout schema.tables prior
  let tables := schema.tables.map fun t => layout.place (.unplaced t)
  reroute { d with text, snapshot := { d.snapshot with report, schema, tables, layout } }

/-- Puts the top left corner of a table somewhere else. -/
def moveTable (d : Diagram α) (name : Text) (position : Point α) : Except (Failure α) (Diagram α) :=
  let s := d.snapshot
  if s.layout.contains name then
    let layout := s.layout.move name position
    reroute { d with snapshot := { s with layout, tables := s.tables.map layout.place } }
  else .error (.unknownTable name)

def setStyle (d : Diagram α) (style : RoutingStyle) : Except (Failure α) (Diagram α) :=
  reroute { d with snapshot := { d.snapshot with style } }

def setScale (d : Diagram α) (scale : α) : Except (Failure α) (Diagram α) := do
  Failure.checkScale scale
  reroute { d with snapshot := { d.snapshot with scale } }

/-- Places all tables anew, whatever places they had. -/
def arrange (d : Diagram α) : Except (Failure α) (Diagram α) := do
  let s := d.snapshot
  let layout ← Failure.ofGeometry <|
    autoLayout d.options.metrics d.options.layout s.schema.tables s.schema.relationships
  reroute { d with snapshot := { s with layout, tables := s.tables.map layout.place } }

end Diagram
end SchemaDiagram
