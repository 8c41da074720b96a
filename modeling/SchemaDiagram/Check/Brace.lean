import SchemaDiagram.Check.Problem

/-! # Balance of braces -/
namespace SchemaDiagram

/-- One error for every brace that closes nothing, and one for all the braces that are missing. -/
def checkBraces (s : Source) : List Diagnostic :=
  let stray := s.outline.strayCloses.map fun c => Problem.strayBrace.mark c.line c.column (c.column + 1)
  let missing := match s.outline.unclosed, s.lastCodeLine? with
    | n + 1, some l => [(Problem.missingBraces (n + 1)).mark l.number 1 l.endColumn]
    | _, _ => []
  stray ++ missing

end SchemaDiagram
