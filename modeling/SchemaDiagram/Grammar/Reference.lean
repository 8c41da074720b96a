import SchemaDiagram.Grammar.Name
import SchemaDiagram.Grammar.Setting

/-! # References

A relationship is written as two fields with a sign between them, in a statement that starts with
the word `Ref`, on a line of a reference block, or as a setting of the field it comes from.
-/
namespace SchemaDiagram

/-- `a.x > b.y [settings]`. -/
structure RefBody where
  source : FieldName
  kind : RelationKind
  target : FieldName
  settings : List Setting
  deriving Repr

namespace RefBody

/-- The value of the first setting with the given key, in lower case. -/
def action (r : RefBody) (key : String) : Option Text :=
  (r.settings.find? (·.hasKey key)).bind fun s => s.value?.map Text.lower

/-- A reference that the tokens make up in full. -/
def ofTokens? (text : Text) (tokens : List Lexeme) : Option RefBody :=
  match FieldName.read? tokens with
  | some (source, ⟨.op kind, _, _⟩ :: rest) =>
    match FieldName.read? rest with
    | some (target, []) => some ⟨source, kind, target, []⟩
    | some (target, ⟨.openBracket, _, _⟩ :: rest) =>
      let list := SettingList.read text rest
      if list.closed && list.rest.isEmpty then some ⟨source, kind, target, list.settings⟩ else none
    | _ => none
  | _ => none

/-- A line of a reference block. -/
def read? (text : Text) : Option RefBody := ofTokens? text (tokens text)

end RefBody

/-- Whether a statement starts with the word `Ref`. -/
def isRefStatement (text : Text) : Bool := (firstToken? text).any (·.isWord "ref")

structure RefStatement where
  name : Option Text
  body : RefBody
  deriving Repr

/-- `Ref name: a.x > b.y [settings]`, the name optional. -/
def RefStatement.read? (text : Text) : Option RefStatement :=
  match tokens text with
  | x :: rest =>
    if x.isWord "ref" then
      match rest with
      | ⟨.colon, _, _⟩ :: body => (RefBody.ofTokens? text body).map (⟨none, ·⟩)
      | name :: ⟨.colon, _, _⟩ :: body =>
        if name.isIdentifier then (RefBody.ofTokens? text body).map (⟨name.name?, ·⟩) else none
      | _ => none
    else none
  | [] => none

/-- `ref: > b.y` among the settings of a field. -/
def inlineRef? (setting : Text) : Option (RelationKind × FieldName) :=
  match tokens setting with
  | x :: ⟨.colon, _, _⟩ :: ⟨.op kind, _, _⟩ :: rest =>
    if x.isWord "ref" then
      match FieldName.read? rest with
      | some (target, []) => some (kind, target)
      | _ => none
    else none
  | _ => none

end SchemaDiagram
