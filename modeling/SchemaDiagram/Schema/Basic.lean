import SchemaDiagram.Schema.RelationKind

/-! # Schema

What a text declares: tables with their fields, enums, and relationships between fields. The ends
of a relationship are names only; no table or field of that name has to exist.
-/
namespace SchemaDiagram

structure TableField where
  name : Text
  dataType : Text
  isPrimaryKey : Bool := false
  notNull : Bool := false
  unique : Bool := false
  increment : Bool := false
  default : Option Text := none
  note : Option Text := none
  deriving DecidableEq, Repr

structure Table where
  name : Text
  /-- A second name, for relationships. -/
  otherName : Option Text := none
  /-- In the order they are declared, which is the order they are shown in. -/
  fields : List TableField := []
  note : Option Text := none
  color : Option Text := none
  deriving DecidableEq, Repr

/-- Index of the first field with a name. -/
def Table.fieldIndex? (t : Table) (name : Text) : Option Nat := t.fields.findIdx? (·.name = name)

structure Enum where
  name : Text
  values : List Text
  deriving DecidableEq, Repr

structure Endpoint where
  table : Text
  field : Text
  deriving DecidableEq, Repr

inductive RelationOrigin
  /-- A setting of a field. -/
  | inline
  /-- A statement of its own, or a line of a reference block. -/
  | standalone
  deriving DecidableEq, Repr

structure Relationship where
  source : Endpoint
  kind : RelationKind
  target : Endpoint
  name : Option Text := none
  onDelete : Option Text := none
  onUpdate : Option Text := none
  origin : RelationOrigin := .standalone
  deriving DecidableEq, Repr

structure Schema where
  tables : List Table := []
  relationships : List Relationship := []
  enums : List Enum := []
  deriving DecidableEq, Repr

namespace Schema

/-- The first table with a name; names need not be distinct. -/
def table? (s : Schema) (name : Text) : Option Table := s.tables.find? (·.name = name)

end Schema

/-- The first declaration of every name, in order. -/
def firstDeclarations (tables : List Table) : List Table :=
  tables.foldl (fun seen t => if seen.any (·.name = t.name) then seen else seen ++ [t]) []

end SchemaDiagram
