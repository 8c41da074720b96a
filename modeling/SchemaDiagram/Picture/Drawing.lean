import SchemaDiagram.Picture.Markup
import SchemaDiagram.Decimal.Written
import SchemaDiagram.Routing.Edge

/-! # Drawings

A picture of a placed diagram as an SVG document. Tables are drawn in units of the diagram inside a
scaled group; edges come scaled and are drawn first, so that tables cover their ends.
-/
namespace SchemaDiagram

/-- Numbers that can be written into a picture. -/
class Written (α : Type) where
  write : α → Text

instance : Written Float := ⟨NumberStyle.plain.write⟩

variable {α : Type} [Coordinate α]

/-- What is left free at the right of a picture and below it. -/
def padding : α := 40

/-- The size of the picture: it reaches from the origin to the furthest corner of a table and the
furthest point of an edge. -/
def extent (m : Metrics α) (tables : List (PlacedTable α)) (edges : List (Edge α)) (scale : α) :
    Except EmptyRange (Size α) := do
  let corners ← tables.mapM fun t => do
    let size ← t.effectiveSize m
    return (⟨(t.position.x + size.width) * scale, (t.position.y + size.height) * scale⟩ : Point α)
  let points := corners ++ edges.flatMap fun e => pathPoints e.path
  return ⟨Coordinate.largest (points.map Point.x) + padding, Coordinate.largest (points.map Point.y) + padding⟩

variable [Written α]

/-! ## Edges -/

def PathCommand.write (c : PathCommand α) : Text :=
  let letter := match c with
    | moveTo _ => 'M'
    | lineTo _ => 'L'
    | quadTo _ _ => 'Q'
    | cubicTo _ _ _ => 'C'
  letter :: c.points.flatMap fun p => ' ' :: Written.write p.x ++ ' ' :: Written.write p.y

def Edge.pathText (e : Edge α) : Text := Text.joinWith ' ' (e.path.map PathCommand.write)

def ArrowHead.pointsText (h : ArrowHead α) : Text :=
  Text.joinWith ' ' (h.points.map fun p => Written.write p.x ++ ',' :: Written.write p.y)

def Edge.draw (e : Edge α) : List Element :=
  .leaf ⟨"path", [⟨"class", "edge".toList⟩, ⟨"data-relationship", (toString e.relationship).toList⟩,
    ⟨"d", e.pathText⟩]⟩ ::
  e.arrowHeads.map fun h => .leaf ⟨"polygon", [⟨"class", "arrow".toList⟩, ⟨"points", h.pointsText⟩]⟩

/-! ## Tables -/

def box (kind : String) (color : Option Text) (x y width height : α) (round : Bool) : Element :=
  let style := color.toList.map fun c => (⟨"style", "fill: ".toList ++ c⟩ : Attribute)
  let radius := if round then [(⟨"rx", ['4']⟩ : Attribute)] else []
  .leaf ⟨"rect", ⟨"class", kind.toList⟩ :: style ++
    [⟨"x", Written.write x⟩, ⟨"y", Written.write y⟩, ⟨"width", Written.write width⟩,
     ⟨"height", Written.write height⟩] ++ radius⟩

/-- The header of a table without fields fills its box; any other is round at the top and square at
the bottom. -/
def drawHeader (m : Metrics α) (t : PlacedTable α) (size : Size α) : List Element :=
  let x := t.position.x
  let y := t.position.y
  if t.table.fields.isEmpty then [box "table-header" t.table.color x y size.width size.height true]
  else
    [box "table-header" t.table.color x y size.width m.headerHeight true,
     box "table-header" t.table.color x (y + m.headerHeight - 4) size.width 4 false]

def drawName (m : Metrics α) (t : PlacedTable α) (size : Size α) : Element :=
  .text ⟨"text", [⟨"class", "table-name".toList⟩,
    ⟨"x", Written.write (t.position.x + size.width / 2)⟩,
    ⟨"y", Written.write (t.position.y + m.headerHeight / 2 + 5)⟩,
    ⟨"text-anchor", "middle".toList⟩]⟩ t.table.name

def drawRule (m : Metrics α) (t : PlacedTable α) (size : Size α) : Element :=
  let y := t.position.y + m.headerHeight
  .leaf ⟨"line", [⟨"x1", Written.write t.position.x⟩, ⟨"y1", Written.write y⟩,
    ⟨"x2", Written.write (t.position.x + size.width)⟩, ⟨"y2", Written.write y⟩,
    ⟨"stroke", "#333".toList⟩, ⟨"stroke-width", ['1']⟩]⟩

def drawRow (m : Metrics α) (t : PlacedTable α) (y : α) (f : TableField) : Element :=
  let kind := if f.isPrimaryKey then "field-text pk" else "field-text"
  let mark := if f.isPrimaryKey then "◆ " else "  "
  .text ⟨"text", [⟨"class", kind.toList⟩, ⟨"x", Written.write (t.position.x + m.paddingX)⟩,
    ⟨"y", Written.write y⟩, ⟨"dominant-baseline", "middle".toList⟩]⟩
    (mark.toList ++ f.name ++ ':' :: ' ' :: f.dataType)

/-- The rows of the fields from index `index` on, up to the first one below the box. -/
def drawRows (m : Metrics α) (t : PlacedTable α) (size : Size α) : Nat → List TableField → List Element
  | _, [] => []
  | index, f :: rest =>
    let y := t.position.y + m.rowCenter index
    if t.position.y + size.height < y then [] else drawRow m t y f :: drawRows m t size (index + 1) rest

def PlacedTable.draw (m : Metrics α) (t : PlacedTable α) (size : Size α) : List Element :=
  let x := t.position.x
  let y := t.position.y
  box "table-bg" none x y size.width size.height true :: drawHeader m t size ++
    drawName m t size ::
    (if t.table.fields.isEmpty then [] else drawRule m t size :: drawRows m t size 0 t.table.fields) ++
    [box "table-border" none x y size.width size.height true]

/-! ## Documents -/

def styleSheet : Element :=
  .text ⟨"style", []⟩ <| String.toList <| "\n" ++
    "  .table-bg \x7b fill: #fff; \x7d\n" ++
    "  .table-header \x7b fill: #e0e0e0; \x7d\n" ++
    "  .table-border \x7b fill: none; stroke: #333; stroke-width: 1.5; \x7d\n" ++
    "  .table-name \x7b font-family: monospace; font-size: 14px; font-weight: bold; \x7d\n" ++
    "  .field-text \x7b font-family: monospace; font-size: 12px; \x7d\n" ++
    "  .pk \x7b font-weight: bold; \x7d\n" ++
    "  .edge \x7b stroke: #666; stroke-width: 1.5; fill: none; \x7d\n" ++
    "  .arrow \x7b fill: #666; \x7d\n"

def writeAll (elements : List Element) : Text := elements.flatMap Element.write

def document (size : Size α) (scale : α) (edges tables : List Element) : Text :=
  let width := Written.write size.width
  let height := Written.write size.height
  let root : Tag := ⟨"svg", [⟨"xmlns", "http://www.w3.org/2000/svg".toList⟩, ⟨"width", width⟩,
    ⟨"height", height⟩, ⟨"viewBox", "0 0 ".toList ++ width ++ ' ' :: height⟩]⟩
  let group : Tag := ⟨"g", [⟨"transform", "scale(".toList ++ Written.write scale ++ [')']⟩]⟩
  root.around (styleSheet.write ++ writeAll edges ++ group.around (writeAll tables))

/-- The picture of tables and edges. -/
def draw (m : Metrics α) (tables : List (PlacedTable α)) (edges : List (Edge α)) (scale : α) :
    Except EmptyRange Text := do
  let size ← extent m tables edges scale
  let drawn ← tables.mapM fun t => do return t.draw m (← t.effectiveSize m)
  return document size scale (edges.flatMap Edge.draw) drawn.flatten

end SchemaDiagram
