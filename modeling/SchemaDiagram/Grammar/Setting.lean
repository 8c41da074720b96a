import SchemaDiagram.Source.Token

/-! # Settings

A list of settings stands between brackets, with commas between its items. Brackets and
parentheses inside an item nest.
-/
namespace SchemaDiagram

/-- An item of a list of settings, as written, with the bytes it stands at. -/
structure Setting where
  text : Text
  start : Nat
  stop : Nat
  deriving DecidableEq, Repr

namespace Setting

/-- Lower case, with one space for every run of blanks. -/
def normalized (s : Setting) : Text := Text.lower (Text.collapseBlanks s.text)

/-- What stands before the first colon, in lower case. -/
def key? (s : Setting) : Option Text := (Text.splitAtFirst ':' s.text).map fun (key, _) => Text.lower (Text.trim key)

/-- What stands after the first colon, as written. -/
def value? (s : Setting) : Option Text := (Text.splitAtFirst ':' s.text).map fun (_, value) => Text.trim value

def hasKey (s : Setting) (key : String) : Bool := s.key? == some key.toList

/-- The string after the colon of a setting that is a name, a colon and a string. -/
def string? (s : Setting) : Option Text :=
  match tokens s.text with
  | [key, ⟨.colon, _, _⟩, ⟨.str content, _, _⟩] => if key.name?.isSome then some content else none
  | _ => none

end Setting

/-- The tokens of each item from inside a list whose open brackets and parentheses number `depth`,
and the tokens after the bracket that closes the list; there are none if it is not closed. -/
def splitItems : Nat → List Lexeme → List (List Lexeme) × Option (List Lexeme)
  | _, [] => ([[]], none)
  | depth, x :: rest =>
    let withItem (depth : Nat) := match splitItems depth rest with
      | (item :: items, after) => ((x :: item) :: items, after)
      | ([], after) => ([[x]], after)
    match x.token, depth with
    | .openParen, depth | .openBracket, depth => withItem (depth + 1)
    | .closeBracket, 0 => ([[]], some rest)
    | .closeParen, depth | .closeBracket, depth => withItem (depth - 1)
    | .comma, 0 => let (items, after) := splitItems 0 rest; ([] :: items, after)
    | _, depth => withItem depth

/-- The setting that an item's tokens make up; an empty item makes none. -/
def Setting.ofItem? (source : Text) (item : List Lexeme) : Option Setting :=
  match item.head?, item.getLast? with
  | some first, some last => some ⟨source.slice first.start last.stop, first.start, last.stop⟩
  | _, _ => none

structure SettingList where
  settings : List Setting
  /-- The tokens after the list. -/
  rest : List Lexeme
  closed : Bool
  deriving Repr

/-- The list whose opening bracket stands in front of the tokens. A list that is not closed runs to
the end. -/
def SettingList.read (source : Text) (tokens : List Lexeme) : SettingList :=
  let (items, after) := splitItems 0 tokens
  ⟨items.filterMap (Setting.ofItem? source), after.getD [], after.isSome⟩

end SchemaDiagram
