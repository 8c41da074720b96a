import SchemaDiagram.Check.Problem
import SchemaDiagram.Check.Vocabulary
import SchemaDiagram.Grammar.Reference

/-! # References and keywords -/
namespace SchemaDiagram

/-- What is wrong with a statement that has to be a reference, if anything is. -/
def referenceProblem? (s : Statement) : Option Problem :=
  match s.context with
  | .topLevel =>
    if s.opens.isNone && isRefStatement s.text && (RefStatement.read? s.text).isNone then
      some .referenceStatement
    else none
  | .ref _ => if (RefBody.read? s.text).isNone then some .referenceLine else none
  | _ => none

def checkReferences (s : Source) : List Diagnostic :=
  s.outline.statements.filterMap fun statement => (referenceProblem? statement).map (·.markAll statement)

/-- A keyword may start a statement outside all blocks, or the header of a block in a table. -/
def mayStartWithKeyword (s : Statement) : Bool :=
  match s.context with
  | .topLevel => true
  | .table _ => s.opens.isSome
  | _ => false

def checkKeywords (s : Source) : List Diagnostic :=
  (s.outline.statements.filter mayStartWithKeyword).filterMap fun statement =>
    match firstToken? statement.text with
    | some ⟨.word word, start, stop⟩ =>
      (exactCorrection keywordTypos (Text.lower word)).map fun fix =>
        (Problem.unknownKeyword word fix).markIn statement start stop
    | _ => none

end SchemaDiagram
