import SchemaDiagram.Source.Token

/-! # Names

A name is one part or several parts joined by dots, each a bare word or a string. A dot that joins
two parts stands right behind the first.
-/
namespace SchemaDiagram

/-- A name with the bytes it stands at; quotes are taken off its parts. -/
structure Name where
  parts : List Text
  start : Nat
  stop : Nat
  deriving DecidableEq, Repr

namespace Name

/-- The parts with dots between them. -/
def value (n : Name) : Text := Text.joinWith '.' n.parts

/-- The parts that follow one which ends at byte `stop`, the end of the last part, and the tokens
after it. -/
def readParts (stop : Nat) : List Lexeme → List Text × Nat × List Lexeme
  | x :: y :: rest =>
    if x.token = .dot ∧ x.start = stop then
      match y.name? with
      | some part =>
        let (parts, last, after) := readParts y.stop rest
        (part :: parts, last, after)
      | none => ([], stop, x :: y :: rest)
    else ([], stop, x :: y :: rest)
  | tokens => ([], stop, tokens)

/-- The longest name at the front, and the tokens after it. -/
def read? : List Lexeme → Option (Name × List Lexeme)
  | [] => none
  | x :: rest =>
    x.name?.map fun part =>
      let (parts, stop, after) := readParts x.stop rest
      (⟨part :: parts, x.start, stop⟩, after)

end Name

/-- A field of a table, as a relationship names it. -/
structure FieldName where
  table : Text
  field : Text
  start : Nat
  stop : Nat
  deriving DecidableEq, Repr

/-- The name of a table has one part or more, the last part after it is the field. -/
def FieldName.read? (tokens : List Lexeme) : Option (FieldName × List Lexeme) :=
  match Name.read? tokens with
  | some (name, after) =>
    if name.parts.length < 2 then none
    else name.parts.getLast?.map fun field =>
      (⟨Text.joinWith '.' name.parts.dropLast, field, name.start, name.stop⟩, after)
  | none => none

end SchemaDiagram
