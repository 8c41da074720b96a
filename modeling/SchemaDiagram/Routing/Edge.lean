import SchemaDiagram.Layout.Metrics
import SchemaDiagram.Layout.Placement
import SchemaDiagram.Routing.Path

/-! # Edges

A relationship whose tables and fields exist is drawn as an edge: a path between two anchors, with
an arrow head at every end that the relationship points at.
-/
namespace SchemaDiagram

/-- A filled triangle; `tip` is at the edge of the table. -/
structure ArrowHead (α : Type) where
  tip : Point α
  left : Point α
  right : Point α
  deriving DecidableEq, Repr

structure Edge (α : Type) where
  /-- Index of the relationship. -/
  relationship : Nat
  anchors : Anchors α
  path : List (PathCommand α)
  arrowHeads : List (ArrowHead α)
  deriving DecidableEq, Repr

variable {α : Type} [Coordinate α]

/-! ## Arrow heads -/

namespace ArrowHead

def points (h : ArrowHead α) : List (Point α) := [h.tip, h.left, h.right]

/-- The arrow head at `tip` that points along `direction`. -/
def pointing (tip direction : Point α) (length width : α) : ArrowHead α :=
  let direction := direction.normalizeOr ⟨1, 0⟩
  let back := tip - direction.scale length
  let half := direction.perpendicular.scale (width / 2)
  ⟨tip, back + half, back - half⟩

def scale (h : ArrowHead α) (factor : α) : ArrowHead α :=
  ⟨h.tip.scale factor, h.left.scale factor, h.right.scale factor⟩

/-- An arrow head points as the path does where it meets the table. -/
def ofPath (kind : RelationKind) (path : List (PathCommand α)) (a : Anchors α) (o : RoutingOptions α) :
    List (ArrowHead α) :=
  let atSource := ((startDirection? path).map (·.scale (-1))).getD ⟨-a.sourceSide.outward, 0⟩
  let atTarget := (endDirection? path).getD ⟨-a.targetSide.outward, 0⟩
  (if kind.pointsAtFrom then [pointing a.source atSource o.arrowLength o.arrowWidth] else []) ++
    if kind.pointsAtTo then [pointing a.target atTarget o.arrowLength o.arrowWidth] else []

end ArrowHead

/-! ## Routes -/

/-- The size a table is drawn with: its own, or when that is empty the one its fields ask for. -/
def PlacedTable.effectiveSize (m : Metrics α) (t : PlacedTable α) : Except EmptyRange (Size α) :=
  if t.size.isEmpty then m.tableSize t.table else .ok t.size

/-- The row that an endpoint names: in the first table of that name, the first field of that name. -/
def rowEnd (m : Metrics α) (tables : List (PlacedTable α)) (e : Endpoint) :
    Except EmptyRange (Option (RowEnd α)) := do
  match tables.find? (·.table.name = e.table) with
  | none => return none
  | some t =>
    match t.table.fieldIndex? e.field with
    | none => return none
    | some index =>
      let size ← t.effectiveSize m
      return some ⟨⟨t.position, size⟩, m.rowCenter index⟩

namespace Edge

def scale (e : Edge α) (factor : α) : Edge α where
  relationship := e.relationship
  anchors := { e.anchors with source := e.anchors.source.scale factor, target := e.anchors.target.scale factor }
  path := e.path.map (·.map (·.scale factor))
  arrowHeads := e.arrowHeads.map (·.scale factor)

/-- The edge between two rows. -/
def between (o : RoutingOptions α) (style : RoutingStyle) (index : Nat) (kind : RelationKind)
    (source target : RowEnd α) (looped : Bool) : Except EmptyRange (Edge α) := do
  let anchors ← chooseAnchors source target looped
  let path ← SchemaDiagram.path style anchors o
  return ⟨index, anchors, path, ArrowHead.ofPath kind path anchors o⟩

/-- The edge of a relationship before scaling; none if one of its ends names no field. -/
def ofRelationship (m : Metrics α) (o : RoutingOptions α) (style : RoutingStyle)
    (tables : List (PlacedTable α)) (index : Nat) (r : Relationship) : Except EmptyRange (Option (Edge α)) := do
  match ← rowEnd m tables r.source with
  | none => return none
  | some source =>
    match ← rowEnd m tables r.target with
    | none => return none
    | some target => return some (← between o style index r.kind source target (r.source.table = r.target.table))

end Edge

/-- The edges of the relationships from index `index` on, before scaling. -/
def edgesFrom (m : Metrics α) (o : RoutingOptions α) (style : RoutingStyle) (tables : List (PlacedTable α)) :
    Nat → List Relationship → Except EmptyRange (List (Edge α))
  | _, [] => .ok []
  | index, r :: rest => do
    let edge ← Edge.ofRelationship m o style tables index r
    let edges ← edgesFrom m o style tables (index + 1) rest
    return edge.toList ++ edges

/-- The edges of the relationships, all coordinates multiplied by `factor`. -/
def routeEdges (m : Metrics α) (o : RoutingOptions α) (style : RoutingStyle) (factor : α)
    (tables : List (PlacedTable α)) (relationships : List Relationship) :
    Except EmptyRange (List (Edge α)) := do
  return (← edgesFrom m o style tables 0 relationships).map (·.scale factor)

end SchemaDiagram
