import SchemaDiagram.Schema.Alias
import SchemaDiagram.Grammar.Header
import SchemaDiagram.Grammar.Field
import SchemaDiagram.Grammar.Reference
import SchemaDiagram.Source.Outline

/-! # The schema of a text

Extraction never rejects a text: it takes what it can read. Tables and enums come from their
blocks, fields from the lines directly inside a table. Relationships come from the settings of
fields first and then from reference statements and blocks, each in the order of the text.
-/
namespace SchemaDiagram

/-- A line directly inside a table. -/
inductive TableLine
  | note (text : Option Text)
  | reference
  | field (head : FieldHead)
  | unreadable

def TableLine.read (text : Text) : TableLine :=
  match noteLine? text with
  | some text => .note text
  | none =>
    if (RefStatement.read? text).isSome then .reference
    else match FieldHead.read? text with
      | some head => .field head
      | none => .unreadable

/-! ## Fields -/

/-- The field with what one of its settings says of it. -/
def TableField.withSetting (f : TableField) (s : Setting) : TableField :=
  match s.key? with
  | some key =>
    if key = "note".toList then { f with note := s.string? }
    else if key = "default".toList then { f with default := s.value? }
    else f
  | none =>
    let flag := s.normalized
    { f with
      isPrimaryKey := f.isPrimaryKey || Text.hasPart "pk".toList flag || Text.hasPart "primary key".toList flag
      notNull := f.notNull || flag == "not null".toList
      unique := f.unique || flag == "unique".toList
      increment := f.increment || flag == "increment".toList || flag == "auto_increment".toList }

def TableField.ofHead (head : FieldHead) : TableField :=
  head.settings.foldl TableField.withSetting { name := head.name, dataType := head.dataType }

def Endpoint.ofName (n : FieldName) : Endpoint := ⟨n.table, n.field⟩

/-- The relationships that the settings of a field declare. -/
def inlineRelationships (table : Text) (head : FieldHead) : List Relationship :=
  head.settings.filterMap fun s =>
    if s.hasKey "ref" then
      (inlineRef? s.text).map fun (kind, target) =>
        { source := ⟨table, head.name⟩, kind, target := Endpoint.ofName target, origin := .inline }
    else none

/-! ## Tables and enums -/

/-- The table with what one of the settings of its header says of it. -/
def Table.withSetting (t : Table) (s : Setting) : Table :=
  if s.hasKey "headercolor" then { t with color := s.value? }
  else if s.hasKey "note" then { t with note := s.string? }
  else t

def Table.withLine (t : Table) : TableLine → Table
  | .note text => { t with note := text.map Text.trim }
  | .field head => { t with fields := t.fields ++ [TableField.ofHead head] }
  | .reference | .unreadable => t

namespace Outline

/-- The lines directly inside a table; a statement that opens a block is none. -/
def tableLines (o : Outline) (b : Block) : List TableLine :=
  ((o.body b).filter (·.opens = none)).map fun s => TableLine.read s.text

/-- The table that a block declares, and the relationships that its fields declare. A block whose
header has no name declares none. -/
def table? (o : Outline) (b : Block) : Option (Table × List Relationship) := do
  let statement ← o.header? b
  let header ← TableHeader.read? statement.text
  let name ← header.name
  let declared : Table := header.settings.foldl Table.withSetting { name := name.value, otherName := header.otherName }
  let lines := o.tableLines b
  let relationships := lines.flatMap fun
    | .field head => inlineRelationships declared.name head
    | _ => []
  return (lines.foldl Table.withLine declared, relationships)

def enum? (o : Outline) (b : Block) : Option Enum := do
  let statement ← o.header? b
  let name ← enumHeader? statement.text
  return ⟨name.value, (o.body b).filterMap fun s => enumValue? s.text⟩

/-- The tables with the relationships of their fields, in the order of their blocks. -/
def tables (o : Outline) : List (Table × List Relationship) :=
  (o.blocks.filter (·.kind = .table)).filterMap o.table?

def enums (o : Outline) : List Enum := (o.blocks.filter (·.kind = .enum)).filterMap o.enum?

/-! ## Standalone relationships -/

/-- The name in the header of a reference block. -/
def refBlockName (o : Outline) (block : Nat) : Option Text := do
  let b ← o.blocks[block]?
  let statement ← o.header? b
  let second ← (tokens statement.text)[1]?
  second.name?

end Outline

def Relationship.ofBody (body : RefBody) (name : Option Text) : Relationship :=
  { source := Endpoint.ofName body.source
    kind := body.kind
    target := Endpoint.ofName body.target
    name
    onDelete := body.action "delete"
    onUpdate := body.action "update" }

namespace Outline

/-- The relationship that a statement declares, if it opens no block. -/
def relationship? (o : Outline) (s : Statement) : Option Relationship :=
  if s.opens = none then
    match s.context with
    | .ref block => (RefBody.read? s.text).map fun body => Relationship.ofBody body (o.refBlockName block)
    | _ => (RefStatement.read? s.text).map fun r => Relationship.ofBody r.body r.name
  else none

def standaloneRelationships (o : Outline) : List Relationship := o.statements.filterMap o.relationship?

/-- What the text declares, with aliases as they are written. -/
def written (o : Outline) : Schema where
  tables := o.tables.map Prod.fst
  relationships := o.tables.flatMap Prod.snd ++ o.standaloneRelationships
  enums := o.enums

end Outline

def Schema.ofText (t : Text) : Schema := (Source.ofText t).outline.written.resolveAliases

end SchemaDiagram
