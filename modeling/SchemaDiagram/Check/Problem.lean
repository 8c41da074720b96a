import SchemaDiagram.Diagnostic
import SchemaDiagram.Source.Outline

/-! # Problems

What can be wrong with a schema text, and the words for it.
-/
namespace SchemaDiagram

inductive Problem
  | declaredTimes (table : Text) (count : Nat)
  | duplicateTable (table : Text)
  | strayBrace
  | missingBraces (count : Nat)
  | missingTableName
  | fieldSyntax
  | referenceStatement
  | referenceLine
  | unknownKeyword (word : Text) (fix : String)
  | unknownType (type : Text) (fix : Option String)
  | missingDefault
  | noteWithoutString
  | inlineReference
  | unknownAction (key : Text) (action : Text) (fix : Option String)
  | unknownConstraint (setting : Text) (fix : Option String)
  deriving DecidableEq, Repr

namespace Problem

def severity : Problem → Severity
  | declaredTimes _ _ | duplicateTable _ | strayBrace | missingBraces _ | missingTableName
  | fieldSyntax => .error
  | referenceStatement | referenceLine | unknownKeyword _ _ | unknownType _ _ | missingDefault
  | noteWithoutString | inlineReference | unknownAction _ _ _ | unknownConstraint _ _ => .warning

def quoted (t : Text) : String := "\"" ++ String.ofList t ++ "\""

def suggestion : Option String → String
  | some fix => ". Did you mean \"" ++ fix ++ "\"?"
  | none => ""

def message : Problem → String
  | declaredTimes table count => "Table " ++ quoted table ++ " is declared " ++ toString count ++ " times"
  | duplicateTable table => "Duplicate table name " ++ quoted table
  | strayBrace => "Unexpected closing brace"
  | missingBraces count =>
    "Missing " ++ toString count ++ " closing " ++ if count = 1 then "brace" else "braces"
  | missingTableName => "Table name is missing"
  | fieldSyntax => "Invalid field syntax: expected '<name> <type> [settings]'"
  | referenceStatement =>
    "Invalid reference syntax: expected 'Ref: <table>.<field> <op> <table>.<field>'"
  | referenceLine => "Invalid reference syntax: expected '<table>.<field> <op> <table>.<field>'"
  | unknownKeyword word fix => "Unknown keyword " ++ quoted word ++ suggestion (some fix)
  | unknownType type fix => "Unknown data type " ++ quoted type ++ suggestion fix
  | missingDefault => "Missing value for default: expected 'default: <value>'"
  | noteWithoutString => "Note must be a quoted string: expected note: '<text>'"
  | inlineReference => "Invalid ref setting: expected 'ref: <op> <table>.<field>'"
  | unknownAction key action fix =>
    "Unknown " ++ String.ofList key ++ " action " ++ quoted action ++ suggestion fix
  | unknownConstraint setting fix => "Unknown constraint " ++ quoted setting ++ suggestion fix

def mark (p : Problem) (line column endColumn : Nat) : Diagnostic :=
  Diagnostic.mark p.severity line column endColumn p.message

/-- Marks the bytes from `start` up to `stop` of a statement. -/
def markIn (p : Problem) (s : Statement) (start stop : Nat) : Diagnostic :=
  p.mark s.line (s.columnAt start) (s.columnAt stop)

/-- Marks a statement, as far as it stands on its first line. -/
def markAll (p : Problem) (s : Statement) : Diagnostic := p.markIn s 0 s.text.bytes

end Problem
end SchemaDiagram
