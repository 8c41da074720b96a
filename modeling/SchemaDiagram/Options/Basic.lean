import SchemaDiagram.Options.Number
import SchemaDiagram.Layout.Metrics
import SchemaDiagram.Layout.Grid
import SchemaDiagram.Routing.Style
import SchemaDiagram.Failure

/-! # Options

All that can be set about a diagram. In a document every section and every field may be left out;
what is left out has its standard value.
-/
namespace SchemaDiagram

structure Options (α : Type) where
  metrics : Metrics α
  layout : LayoutOptions α
  routing : RoutingOptions α
  deriving DecidableEq, Repr

def Options.standard {α : Type} [Coordinate α] : Options α := ⟨.standard, .standard, .standard⟩

/-! ## Records

A record is an object, or an array of its fields in order. -/

/-- The fields that a document gives, by name. -/
abbrev Record := List (String × Json)

namespace Record

/-- Members with other names are skipped; a name may stand there once. -/
def ofMembers? (names : List String) : List (Option Text × Json) → Option Record
  | [] => some []
  | (none, _) :: _ => none
  | (some key, value) :: rest => do
    let record ← ofMembers? names rest
    match names.find? (·.toList = key) with
    | none => return record
    | some name => if record.any (·.1 = name) then none else return (name, value) :: record

def ofItems? (names : List String) (items : List Json) : Option Record :=
  if items.length ≤ names.length then some (names.zip items) else none

def read? (names : List String) : Json → Option Record
  | .object members => ofMembers? names members
  | .array items => ofItems? names items
  | _ => none

/-- A field's value, or its standard value if it is left out. -/
def get? {β : Type} (r : Record) (name : String) (standard : β) (decode : Json → Option β) : Option β :=
  match r.lookup name with
  | some value => decode value
  | none => some standard

end Record

/-! ## Fields -/

namespace Json

def number? : Json → Option Float
  | .number n => n.toFloat?
  | _ => none

def count? : Json → Option Nat
  | .number n => n.toNat?
  | _ => none

/-- A style is given by its name, or by an object with its name and no value. -/
def style? : Json → Option RoutingStyle
  | .string (some name) => RoutingStyle.ofName? name
  | .object [(some name, .null)] => RoutingStyle.ofName? name
  | _ => none

end Json

/-! ## Sections -/

def Metrics.decode? (j : Json) : Option (Metrics Float) := do
  let r ← Record.read? ["charWidth", "headerHeight", "rowHeight", "paddingX", "minWidth", "maxWidth",
    "minHeight", "maxHeight"] j
  let s : Metrics Float := .standard
  return {
    charWidth := ← r.get? "charWidth" s.charWidth Json.number?
    headerHeight := ← r.get? "headerHeight" s.headerHeight Json.number?
    rowHeight := ← r.get? "rowHeight" s.rowHeight Json.number?
    paddingX := ← r.get? "paddingX" s.paddingX Json.number?
    minWidth := ← r.get? "minWidth" s.minWidth Json.number?
    maxWidth := ← r.get? "maxWidth" s.maxWidth Json.number?
    minHeight := ← r.get? "minHeight" s.minHeight Json.number?
    maxHeight := ← r.get? "maxHeight" s.maxHeight Json.number? }

def LayoutOptions.decode? (j : Json) : Option (LayoutOptions Float) := do
  let r ← Record.read? ["spacingX", "spacingY", "canvasWidth", "canvasHeight", "margin", "maxGroupSize",
    "groupGap"] j
  let s : LayoutOptions Float := .standard
  return {
    spacingX := ← r.get? "spacingX" s.spacingX Json.number?
    spacingY := ← r.get? "spacingY" s.spacingY Json.number?
    canvasWidth := ← r.get? "canvasWidth" s.canvasWidth Json.number?
    canvasHeight := ← r.get? "canvasHeight" s.canvasHeight Json.number?
    margin := ← r.get? "margin" s.margin Json.number?
    maxGroupSize := ← r.get? "maxGroupSize" s.maxGroupSize Json.count?
    groupGap := ← r.get? "groupGap" s.groupGap Json.number? }

def RoutingOptions.decode? (j : Json) : Option (RoutingOptions Float) := do
  let r ← Record.read? ["style", "scale", "curveFactor", "maxControlDistance", "cornerRadius",
    "laneOffset", "stub", "arrowLength", "arrowWidth"] j
  let s : RoutingOptions Float := .standard
  return {
    style := ← r.get? "style" s.style Json.style?
    scale := ← r.get? "scale" s.scale Json.number?
    curveFactor := ← r.get? "curveFactor" s.curveFactor Json.number?
    maxControlDistance := ← r.get? "maxControlDistance" s.maxControlDistance Json.number?
    cornerRadius := ← r.get? "cornerRadius" s.cornerRadius Json.number?
    laneOffset := ← r.get? "laneOffset" s.laneOffset Json.number?
    stub := ← r.get? "stub" s.stub Json.number?
    arrowLength := ← r.get? "arrowLength" s.arrowLength Json.number?
    arrowWidth := ← r.get? "arrowWidth" s.arrowWidth Json.number? }

namespace Options

def decode? (j : Json) : Option (Options Float) := do
  let r ← Record.read? ["metrics", "layout", "routing"] j
  return {
    metrics := ← r.get? "metrics" .standard Metrics.decode?
    layout := ← r.get? "layout" .standard LayoutOptions.decode?
    routing := ← r.get? "routing" .standard RoutingOptions.decode? }

/-- The options of a document; its scale has to be finite and positive. -/
def ofJson (t : Text) : Except (Failure Float) (Options Float) :=
  match (Json.read? t).bind decode? with
  | none => .error .malformedOptions
  | some o => (Failure.checkScale o.routing.scale).map fun _ => o

end Options
end SchemaDiagram
