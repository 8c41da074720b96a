import SchemaDiagram.Routing.Anchor
import SchemaDiagram.Routing.Style

/-! # Paths

The line of an edge as a list of drawing commands: straight, as a curve, or along the axes with
rounded corners.
-/
namespace SchemaDiagram

inductive PathCommand (α : Type)
  | moveTo (stop : Point α)
  | lineTo (stop : Point α)
  | quadTo (control stop : Point α)
  | cubicTo (control1 control2 stop : Point α)
  deriving DecidableEq, Repr

namespace PathCommand

variable {α : Type}

def stop : PathCommand α → Point α
  | moveTo p | lineTo p | quadTo _ p | cubicTo _ _ p => p

/-- The control points and then the end. -/
def points : PathCommand α → List (Point α)
  | moveTo p | lineTo p => [p]
  | quadTo c p => [c, p]
  | cubicTo c d p => [c, d, p]

def map (f : Point α → Point α) : PathCommand α → PathCommand α
  | moveTo p => moveTo (f p)
  | lineTo p => lineTo (f p)
  | quadTo c p => quadTo (f c) (f p)
  | cubicTo c d p => cubicTo (f c) (f d) (f p)

end PathCommand

variable {α : Type} [Coordinate α]

/-- Lengths below this count as none. -/
def tolerance : α := Coordinate.tenth 6

/-! ## Polylines -/

/-- Adds a point to a polyline, of which the newest point comes first. A point next to the last one
is left out, and a last point in the middle of a straight run is replaced. -/
def extendPolyline (newest : List (Point α)) (p : Point α) : List (Point α) :=
  match newest with
  | [] => [p]
  | b :: rest =>
    if b.distance p < tolerance then b :: rest
    else match rest with
      | [] => [p, b]
      | a :: _ =>
        let ab := b - a
        let bp := p - b
        let cross := ab.x * bp.y - ab.y * bp.x
        let dot := ab.x * bp.x + ab.y * bp.y
        if Coordinate.magnitude cross < tolerance ∧ 0 < dot then p :: rest else p :: b :: rest

/-- The polyline without repeated points and points in the middle of a straight run. -/
def simplify (points : List (Point α)) : List (Point α) := (points.foldl extendPolyline []).reverse

/-- The radius of the corner between two segments: at most `radius`, and at most half a segment. -/
def cornerRadius (radius : α) (before corner after : Point α) : α :=
  Coordinate.smaller
    (Coordinate.smaller (Coordinate.larger radius 0) (before.distance corner / 2))
    (corner.distance after / 2)

/-- The way from a segment into the next one. -/
def turn (radius : α) (before corner after : Point α) : List (PathCommand α) :=
  let r := cornerRadius radius before corner after
  if r < tolerance then [.lineTo corner]
  else
    [.lineTo (corner - ((corner - before).normalizeOr Point.zero).scale r),
     .quadTo corner (corner + ((after - corner).normalizeOr Point.zero).scale r)]

def turns (radius : α) : List (Point α) → List (PathCommand α)
  | before :: corner :: after :: rest => turn radius before corner after ++ turns radius (corner :: after :: rest)
  | _ => []

/-- The simplified polyline with its corners cut by curves. -/
def rounded (points : List (Point α)) (radius : α) : List (PathCommand α) :=
  match simplify points with
  | [] => []
  | [p] => [.moveTo p, .lineTo p]
  | p :: q :: rest =>
    .moveTo p :: turns radius (p :: q :: rest) ++ [.lineTo ((q :: rest).getLast (List.cons_ne_nil q rest))]

/-! ## Shapes -/

/-- Along a vertical lane outside the outermost anchor, for anchors at one side. -/
def lanePoints (a : Anchors α) (o : RoutingOptions α) : List (Point α) :=
  let x := match a.sourceSide with
    | .left => Coordinate.smaller a.source.x a.target.x - o.laneOffset
    | .right => Coordinate.larger a.source.x a.target.x + o.laneOffset
  [a.source, ⟨x, a.source.y⟩, ⟨x, a.target.y⟩, a.target]

/-- The waypoints of a route along the axes. Anchors that face each other with room for both stubs
are joined by a vertical line half way; without that room the edge runs around by the middle row. -/
def orthogonalPoints (a : Anchors α) (o : RoutingOptions α) : List (Point α) :=
  if a.sourceSide = a.targetSide then lanePoints a o
  else
    let out : α := a.sourceSide.outward
    if 2 * o.stub ≤ (a.target.x - a.source.x) * out then
      let middle := (a.source.x + a.target.x) / 2
      [a.source, ⟨middle, a.source.y⟩, ⟨middle, a.target.y⟩, a.target]
    else
      let exit := a.source.x + out * o.stub
      let entry := a.target.x + a.targetSide.outward * o.stub
      let middle := (a.source.y + a.target.y) / 2
      [a.source, ⟨exit, a.source.y⟩, ⟨exit, middle⟩, ⟨entry, middle⟩, ⟨entry, a.target.y⟩, a.target]

def orthogonalPath (a : Anchors α) (o : RoutingOptions α) : List (PathCommand α) :=
  rounded (orthogonalPoints a o) o.cornerRadius

/-- A line; an edge from a table to itself takes the lane with sharp corners. -/
def straightPath (a : Anchors α) (o : RoutingOptions α) : List (PathCommand α) :=
  if a.looped then rounded (lanePoints a o) 0 else [.moveTo a.source, .lineTo a.target]

/-- How far the controls of a curve reach. -/
def controlReach (a : Anchors α) (o : RoutingOptions α) : Except EmptyRange α :=
  Coordinate.clamp (a.source.distance a.target * o.curveFactor) o.stub
    (Coordinate.larger o.maxControlDistance o.stub)

/-- A curve that leaves both tables sideways. -/
def curvedPath (a : Anchors α) (o : RoutingOptions α) : Except EmptyRange (List (PathCommand α)) := do
  let reach ← controlReach a o
  return [.moveTo a.source,
    .cubicTo (a.source + ⟨a.sourceSide.outward * reach, 0⟩) (a.target + ⟨a.targetSide.outward * reach, 0⟩) a.target]

def path (style : RoutingStyle) (a : Anchors α) (o : RoutingOptions α) :
    Except EmptyRange (List (PathCommand α)) :=
  match style with
  | .straight => .ok (straightPath a o)
  | .curved => curvedPath a o
  | .orthogonal => .ok (orthogonalPath a o)

/-! ## Directions -/

/-- All control and end points in order. -/
def pathPoints (commands : List (PathCommand α)) : List (Point α) := commands.flatMap PathCommand.points

/-- The direction in which a path leaves its start. -/
def startDirection? (commands : List (PathCommand α)) : Option (Point α) :=
  match pathPoints commands with
  | [] => none
  | start :: after =>
    (after.find? fun p => tolerance < p.distance start).map fun p => (p - start).normalizeOr Point.zero

/-- The direction in which a path arrives at its end. -/
def endDirection? (commands : List (PathCommand α)) : Option (Point α) :=
  match (pathPoints commands).reverse with
  | [] => none
  | last :: before =>
    (before.find? fun p => tolerance < p.distance last).map fun p => (last - p).normalizeOr Point.zero

end SchemaDiagram
