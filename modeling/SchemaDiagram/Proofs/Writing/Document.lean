import SchemaDiagram.Check.Vocabulary
import SchemaDiagram.Proofs.Writing.Grammar

/-! # Written schemas

The text that declares a schema: its tables, each with the relationships of its fields among their
settings, then its enums, then the other relationships. Every name and every note stands between double
quotes, so that it may have any characters but line feeds.
-/
namespace SchemaDiagram

open Segment

/-! ## Lines -/

def flagItem (given : Bool) (words : List String) : List (List Segment) :=
  if given then [phrase (words.map String.toList)] else []

def keyedItem {α : Type} (key : String) (value : α → List Segment) (given : Option α) : List (List Segment) :=
  (given.map fun a => keyed key (value a)).toList

def Relationship.inlineItem (r : Relationship) : List Segment :=
  keyed "ref" (op r.kind :: space :: fieldName r.target.table r.target.field)

def TableField.items (f : TableField) (refs : List Relationship) : List (List Segment) :=
  flagItem f.isPrimaryKey ["pk"] ++ flagItem f.notNull ["not", "null"] ++ flagItem f.unique ["unique"] ++
    flagItem f.increment ["increment"] ++ keyedItem "default" (fun w => [word w]) f.default ++
    keyedItem "note" (fun n => [str n]) f.note ++ refs.map Relationship.inlineItem

/-- `"name" type [settings]`. -/
def TableField.segments (f : TableField) (refs : List Relationship) : List Segment :=
  [str f.name, space, word f.dataType] ++ bracketed (f.items refs)

def Table.items (t : Table) : List (List Segment) :=
  keyedItem "headercolor" (fun c => [word c]) t.color ++ keyedItem "note" (fun n => [str n]) t.note

/-- `Table "name" [settings]`. -/
def Table.header (t : Table) : List Segment := headline "Table" t.name ++ bracketed t.items

def actionValue (action : Text) : List Segment := phrase (Text.words action)

def Relationship.items (r : Relationship) : List (List Segment) :=
  keyedItem "delete" actionValue r.onDelete ++ keyedItem "update" actionValue r.onUpdate

/-- `Ref "name": "table"."field" > "table"."field" [settings]`. -/
def Relationship.segments (r : Relationship) : List Segment :=
  refStart r.name ++ (refBody r.source r.kind r.target ++ bracketed r.items)

/-! ## Texts -/

/-- The lines of a block, from the one that opens it to the one that closes it. -/
def blockLines (header : List Segment) (body : List (List Segment)) : List Text :=
  (line header ++ [' ', '\x7b']) :: body.map line ++ [['\x7d']]

def Table.lines (t : Table) (refs : TableField → List Relationship) : List Text :=
  blockLines t.header (t.fields.map fun f => f.segments (refs f))

def Enum.lines (e : Enum) : List Text := blockLines (headline "Enum" e.name) (e.values.map fun v => [str v])

namespace Schema

def inlineOf (s : Schema) (t : Table) (f : TableField) : List Relationship :=
  s.relationships.filter fun r => r.origin = .inline ∧ r.source = ⟨t.name, f.name⟩

def standalone (s : Schema) : List Relationship := s.relationships.filter (·.origin = .standalone)

def lines (s : Schema) : List Text :=
  s.tables.flatMap (fun t => t.lines (s.inlineOf t)) ++ s.enums.flatMap Enum.lines ++
    s.standalone.map fun r => line r.segments

/-- The schema with its relationships in the order they are read in: first those of the fields, field by field. -/
def inReadingOrder (s : Schema) : Schema :=
  { s with relationships := (s.tables.flatMap fun t => t.fields.flatMap (s.inlineOf t)) ++ s.standalone }

/-- All fields, as the ends of relationships name them. -/
def fieldEnds (s : Schema) : List Endpoint := s.tables.flatMap fun t => t.fields.map fun f => ⟨t.name, f.name⟩

/-- Every relationship that stands in the settings of a field has exactly one field to stand in. -/
structure InlinePlaced (s : Schema) : Prop where
  nodup : s.fieldEnds.Nodup
  source_mem : ∀ r ∈ s.relationships, r.origin = .inline → r.source ∈ s.fieldEnds

/-- Every line ends with a line feed. -/
def text (s : Schema) : Text := s.lines.flatMap (· ++ ['\n'])

end Schema

/-! ## What can be written -/

def Text.OneLine (t : Text) : Prop := '\n' ∉ t

instance (t : Text) : Decidable t.OneLine := inferInstanceAs (Decidable (¬_))

def IsColor (t : Text) : Prop := t.head? = some '#' ∧ t.all isWordChar = true

instance (t : Text) : Decidable (IsColor t) := inferInstanceAs (Decidable (_ ∧ _))

def IsAction (t : Text) : Prop := t ∈ referentialActions.map String.toList

instance (t : Text) : Decidable (IsAction t) := inferInstanceAs (Decidable (t ∈ _))

structure TableField.Writable (f : TableField) : Prop where
  name : f.name ≠ [] ∧ f.name.OneLine
  dataType : f.dataType.IsIdentifier
  default : ∀ w ∈ f.default, w.IsIdentifier
  note : ∀ n ∈ f.note, n.OneLine

instance (f : TableField) : Decidable f.Writable :=
  decidable_of_iff ((f.name ≠ [] ∧ f.name.OneLine) ∧ f.dataType.IsIdentifier ∧ (∀ w ∈ f.default, w.IsIdentifier) ∧
    ∀ n ∈ f.note, n.OneLine) ⟨fun ⟨h₁, h₂, h₃, h₄⟩ => ⟨h₁, h₂, h₃, h₄⟩, fun ⟨h₁, h₂, h₃, h₄⟩ => ⟨h₁, h₂, h₃, h₄⟩⟩

structure Table.Writable (t : Table) : Prop where
  name : t.name ≠ [] ∧ t.name.OneLine
  otherName : t.otherName = none
  color : ∀ c ∈ t.color, IsColor c
  note : ∀ n ∈ t.note, n.OneLine
  fields : ∀ f ∈ t.fields, f.Writable

instance (t : Table) : Decidable t.Writable :=
  decidable_of_iff ((t.name ≠ [] ∧ t.name.OneLine) ∧ t.otherName = none ∧ (∀ c ∈ t.color, IsColor c) ∧
    (∀ n ∈ t.note, n.OneLine) ∧ ∀ f ∈ t.fields, f.Writable)
    ⟨fun ⟨h₁, h₂, h₃, h₄, h₅⟩ => ⟨h₁, h₂, h₃, h₄, h₅⟩, fun ⟨h₁, h₂, h₃, h₄, h₅⟩ => ⟨h₁, h₂, h₃, h₄, h₅⟩⟩

structure Enum.Writable (e : Enum) : Prop where
  name : e.name.OneLine
  values : ∀ v ∈ e.values, v.OneLine

instance (e : Enum) : Decidable e.Writable :=
  decidable_of_iff (e.name.OneLine ∧ ∀ v ∈ e.values, v.OneLine) ⟨fun ⟨h₁, h₂⟩ => ⟨h₁, h₂⟩, fun ⟨h₁, h₂⟩ => ⟨h₁, h₂⟩⟩

structure Relationship.Writable (r : Relationship) : Prop where
  source : r.source.table.OneLine ∧ r.source.field.OneLine
  target : r.target.table.OneLine ∧ r.target.field.OneLine
  name : ∀ n ∈ r.name, n ≠ [] ∧ n.OneLine
  onDelete : ∀ a ∈ r.onDelete, IsAction a
  onUpdate : ∀ a ∈ r.onUpdate, IsAction a
  /-- A setting of a field has no room for more than the kind and the other end. -/
  inline : r.origin = .inline → r.name = none ∧ r.onDelete = none ∧ r.onUpdate = none

instance (r : Relationship) : Decidable r.Writable :=
  decidable_of_iff ((r.source.table.OneLine ∧ r.source.field.OneLine) ∧
    (r.target.table.OneLine ∧ r.target.field.OneLine) ∧ (∀ n ∈ r.name, n ≠ [] ∧ n.OneLine) ∧
    (∀ a ∈ r.onDelete, IsAction a) ∧ (∀ a ∈ r.onUpdate, IsAction a) ∧
    (r.origin = .inline → r.name = none ∧ r.onDelete = none ∧ r.onUpdate = none))
    ⟨fun ⟨h₁, h₂, h₃, h₄, h₅, h₆⟩ => ⟨h₁, h₂, h₃, h₄, h₅, h₆⟩, fun ⟨h₁, h₂, h₃, h₄, h₅, h₆⟩ => ⟨h₁, h₂, h₃, h₄, h₅, h₆⟩⟩

/-- A schema without aliases whose texts are such that they can be written. -/
structure Schema.Writable (s : Schema) : Prop where
  tables : ∀ t ∈ s.tables, t.Writable
  enums : ∀ e ∈ s.enums, e.Writable
  relationships : ∀ r ∈ s.relationships, r.Writable

instance (s : Schema) : Decidable s.Writable :=
  decidable_of_iff ((∀ t ∈ s.tables, t.Writable) ∧ (∀ e ∈ s.enums, e.Writable) ∧ ∀ r ∈ s.relationships, r.Writable)
    ⟨fun ⟨h₁, h₂, h₃⟩ => ⟨h₁, h₂, h₃⟩, fun ⟨h₁, h₂, h₃⟩ => ⟨h₁, h₂, h₃⟩⟩

end SchemaDiagram
