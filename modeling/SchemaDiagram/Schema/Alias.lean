import SchemaDiagram.Schema.Basic

/-! # Aliases

A relationship may name a table by its alias. The name of a table always wins over an alias, and
of two tables with one alias the first has it.
-/
namespace SchemaDiagram

/-- The name of the table that `name` stands for. -/
def resolveName (tables : List Table) (name : Text) : Text :=
  if tables.any (·.name = name) then name
  else match tables.find? (·.otherName = some name) with
    | some t => t.name
    | none => name

def Endpoint.resolve (tables : List Table) (e : Endpoint) : Endpoint :=
  { e with table := resolveName tables e.table }

def Relationship.resolve (tables : List Table) (r : Relationship) : Relationship :=
  { r with source := r.source.resolve tables, target := r.target.resolve tables }

/-- The schema with the names of tables in place of their aliases. -/
def Schema.resolveAliases (s : Schema) : Schema :=
  { s with relationships := s.relationships.map (·.resolve s.tables) }

end SchemaDiagram
