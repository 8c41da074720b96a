import SchemaDiagram.Check.Problem
import SchemaDiagram.Check.Vocabulary
import SchemaDiagram.Grammar.Header
import SchemaDiagram.Grammar.Field
import SchemaDiagram.Grammar.Reference

/-! # Lines of tables

The form of the lines directly inside a table, the types of fields and their settings.
-/
namespace SchemaDiagram

/-- The statements directly inside tables that open no block. -/
def tableStatements (o : Outline) : List Statement :=
  o.statements.filter fun s => s.context.isTable && s.opens.isNone

/-- Every line of a table is a note or a field without an open parenthesis or bracket. -/
def checkFieldSyntax (s : Source) : List Diagnostic :=
  (tableStatements s.outline).filterMap fun statement =>
    let wellFormed := (noteLine? statement.text).isSome ||
      (FieldHead.read? statement.text).any (!·.unterminated)
    if wellFormed then none else some (Problem.fieldSyntax.markAll statement)

/-! ## Types -/

/-- The names of enums in lower case. -/
def enumNames (o : Outline) : List Text :=
  (o.blocks.filter (·.kind = .enum)).filterMap fun b => do
    let statement ← o.header? b
    let name ← enumHeader? statement.text
    return Text.lower name.value

/-- What stands behind the last dot. -/
def lastPart (t : Text) : Text := (t.reverse.takeWhile (· ≠ '.')).reverse

/-- A type is known when it is in the vocabulary or an enum, with or without a part in front. -/
def isKnownType (enums : List Text) (type : Text) : Bool :=
  isAmong knownTypes type || enums.contains type || enums.contains (lastPart type)

def checkTypes (s : Source) : List Diagnostic :=
  let enums := enumNames s.outline
  (tableStatements s.outline).filterMap fun statement =>
    (FieldHead.read? statement.text).bind fun field =>
      let base := field.baseType
      if isKnownType enums base then none
      else
        let fix := (correction typeTypos base).or (nearestType base)
        some ((Problem.unknownType field.dataType fix).markIn statement field.typeStart field.typeStop)

/-! ## Settings -/

/-- What is wrong with a setting of a field, if anything is. -/
def settingProblem? (s : Setting) : Option Problem :=
  let normalized := s.normalized
  if isAmong flagSettings normalized then none
  else match s.key? with
    | some key =>
      let value := s.value?.getD []
      if key = "default".toList then if value.isEmpty then some .missingDefault else none
      else if key = "note".toList then if s.string?.isNone then some .noteWithoutString else none
      else if key = "ref".toList then if (inlineRef? s.text).isNone then some .inlineReference else none
      else if key = "delete".toList ∨ key = "update".toList then
        let action := Text.lower (Text.collapseBlanks value)
        if isAmong referentialActions action then none
        else some (.unknownAction key action (correction actionTypos action))
      else some (.unknownConstraint s.text (correction settingTypos key))
    | none => some (.unknownConstraint s.text (correction settingTypos normalized))

/-- The settings of a field are looked at when its parentheses and brackets are closed. -/
def checkSettings (s : Source) : List Diagnostic :=
  (tableStatements s.outline).flatMap fun statement =>
    match FieldHead.read? statement.text with
    | some field =>
      if field.unterminated then []
      else field.settings.filterMap fun setting =>
        (settingProblem? setting).map fun p => p.markIn statement setting.start setting.stop
    | none => []

end SchemaDiagram
