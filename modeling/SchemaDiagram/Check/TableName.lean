import SchemaDiagram.Check.Problem
import SchemaDiagram.Grammar.Header

/-! # Names of tables -/
namespace SchemaDiagram

/-- The headers of tables, each with the statement it is written in. -/
def tableHeaders (o : Outline) : List (Statement × TableHeader) :=
  (o.blocks.filter (·.kind = .table)).filterMap fun b => do
    let statement ← o.header? b
    let header ← TableHeader.read? statement.text
    return (statement, header)

/-- Tables without a name. -/
def checkTableNames (s : Source) : List Diagnostic :=
  (tableHeaders s.outline).filterMap fun (statement, header) =>
    if header.name.isNone then
      some (Problem.missingTableName.markIn statement header.keywordStart header.keywordStop)
    else none

/-- The names of tables, each with the statement it is written in. -/
def declarations (o : Outline) : List (Statement × Name) :=
  (tableHeaders o).filterMap fun (statement, header) => header.name.map (statement, ·)

/-- The names in the order they are declared first. -/
def declaredNames (o : Outline) : List Text := ((declarations o).map fun (_, name) => name.value).eraseDups

def declarationsOf (o : Outline) (name : Text) : List (Statement × Name) :=
  (declarations o).filter fun (_, n) => n.value = name

/-- For every name that several tables have, one error with their number at the first declaration
and one error at every declaration. -/
def checkDuplicates (s : Source) : List Diagnostic :=
  (declaredNames s.outline).flatMap fun name =>
    match declarationsOf s.outline name with
    | first :: second :: more =>
      let sites := first :: second :: more
      (Problem.declaredTimes name sites.length).markIn first.1 first.2.start first.2.stop ::
        sites.map fun (statement, n) => (Problem.duplicateTable name).markIn statement n.start n.stop
    | _ => []

end SchemaDiagram
