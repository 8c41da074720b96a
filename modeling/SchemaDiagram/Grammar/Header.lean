import SchemaDiagram.Grammar.Name
import SchemaDiagram.Grammar.Setting

/-! # Headers of tables and enums -/
namespace SchemaDiagram

/-- A statement that starts with the word `Table`. -/
structure TableHeader where
  keywordStart : Nat
  keywordStop : Nat
  name : Option Name
  /-- The name after the word `as`. -/
  otherName : Option Text
  settings : List Setting
  deriving Repr

namespace TableHeader

/-- The name of the table, if one stands at the front; the word `as` is none. -/
def readName (tokens : List Lexeme) : Option Name × List Lexeme :=
  match tokens with
  | x :: _ =>
    if x.isIdentifier && !x.isWord "as" then
      match Name.read? tokens with
      | some (name, after) => (some name, after)
      | none => (none, tokens)
    else (none, tokens)
  | [] => (none, [])

/-- The name after the word `as`. -/
def readAlias (tokens : List Lexeme) : Option Text × List Lexeme :=
  match tokens with
  | x :: rest => if x.isWord "as" then (rest.head?.bind Lexeme.name?, rest.drop 1) else (none, tokens)
  | [] => (none, [])

/-- `Table name as alias [settings]`, all parts after the first optional. -/
def read? (source : Text) : Option TableHeader :=
  match tokens source with
  | x :: rest =>
    if x.isWord "table" then
      let (name, rest) := readName rest
      let (otherName, rest) := readAlias rest
      let settings := match rest with
        | ⟨.openBracket, _, _⟩ :: rest => (SettingList.read source rest).settings
        | _ => []
      some ⟨x.start, x.stop, name, otherName, settings⟩
    else none
  | [] => none

end TableHeader

/-- The name in a statement that starts with the word `Enum`. -/
def enumHeader? (source : Text) : Option Name :=
  match tokens source with
  | x :: rest => if x.isWord "enum" then (Name.read? rest).map Prod.fst else none
  | [] => none

/-- The value that a line of an enum gives. -/
def enumValue? (source : Text) : Option Text := (firstToken? source).bind Lexeme.name?

end SchemaDiagram
