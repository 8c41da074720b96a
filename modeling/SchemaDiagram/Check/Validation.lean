import SchemaDiagram.Check.Brace
import SchemaDiagram.Check.TableName
import SchemaDiagram.Check.TableBody
import SchemaDiagram.Check.Statement

/-! # Validation

Every check runs over the whole text, whatever the others find; diagnostics are reported check by
check, each in the order of the text.
-/
namespace SchemaDiagram

def checks : List (Source → List Diagnostic) :=
  [checkDuplicates, checkBraces, checkTableNames, checkFieldSyntax, checkReferences, checkKeywords,
   checkTypes, checkSettings]

def Source.diagnostics (s : Source) : List Diagnostic := checks.flatMap (· s)

def validate (t : Text) : Report := ⟨(Source.ofText t).diagnostics⟩

end SchemaDiagram
