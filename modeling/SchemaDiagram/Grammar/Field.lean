import SchemaDiagram.Grammar.Setting

/-! # Lines of a table

A field is a name, a type and perhaps settings. A line that is still being written keeps its name
and type: a parenthesis left open ends the type at the next bracket, a bracket left open takes the
rest of the line as settings.
-/
namespace SchemaDiagram

structure FieldHead where
  name : Text
  nameStart : Nat
  nameStop : Nat
  /-- The type as written, with its arguments and array brackets. -/
  dataType : Text
  typeStart : Nat
  typeStop : Nat
  settings : List Setting
  /-- A parenthesis or bracket is left open. -/
  unterminated : Bool
  deriving Repr

namespace FieldHead

/-- The type in lower case, without arguments, array brackets and double quotes around it. -/
def baseType (f : FieldHead) : Text :=
  let word := Text.trim (f.dataType.takeWhile fun c => c != '(' && c != '[')
  let isMark : Char → Bool := fun c => c == '"'
  Text.lower ((word.dropWhile isMark).reverse.dropWhile isMark).reverse

/-- The end of the parenthesis that closes the one in front of the tokens, and the tokens after it;
`depth` counts the parentheses open inside. -/
def closeParen? : Nat → List Lexeme → Option (Nat × List Lexeme)
  | _, [] => none
  | depth, x :: rest =>
    match x.token, depth with
    | .openParen, depth => closeParen? (depth + 1) rest
    | .closeParen, 0 => some (x.stop, rest)
    | .closeParen, depth + 1 => closeParen? depth rest
    | _, depth => closeParen? depth rest

theorem closeParen?_length_le {depth : Nat} {tokens : List Lexeme} {stop : Nat} {after : List Lexeme}
    (h : closeParen? depth tokens = some (stop, after)) : after.length ≤ tokens.length := by
  fun_induction closeParen? depth tokens with
  | case1 => simp at h
  | case2 _ _ _ _ ih => have := ih h; simp only [List.length_cons]; omega
  | case3 => simp only [Option.some.injEq, Prod.mk.injEq] at h; simp [h.2]
  | case4 _ _ _ _ ih => have := ih h; simp only [List.length_cons]; omega
  | case5 _ _ _ _ _ _ ih => have := ih h; simp only [List.length_cons]; omega

/-- Where a type ends: at byte `stop`, in front of the tokens `rest`. -/
structure TypeEnd where
  stop : Nat
  rest : List Lexeme
  unterminated : Bool

/-- The end of a type that reaches to byte `stop` at least: parts after dots, arguments in
parentheses and array brackets belong to it. -/
def typeEnd (stop : Nat) : List Lexeme → TypeEnd
  | [] => ⟨stop, [], false⟩
  | x :: rest =>
    match x.token with
    | .dot =>
      match rest with
      | y :: after => if y.isIdentifier then typeEnd y.stop after else ⟨stop, x :: rest, false⟩
      | [] => ⟨stop, x :: rest, false⟩
    | .openParen =>
      match h : closeParen? 0 rest with
      | some (closed, after) => typeEnd closed after
      | none =>
        let inside := rest.takeWhile (·.token != .openBracket)
        ⟨(inside.getLast?.getD x).stop, rest.dropWhile (·.token != .openBracket), true⟩
    | .openBracket =>
      match rest with
      | y :: after =>
        if x.start = stop ∧ y.token = .closeBracket then typeEnd y.stop after
        else ⟨stop, x :: rest, false⟩
      | [] => ⟨stop, x :: rest, false⟩
    | _ => ⟨stop, x :: rest, false⟩
termination_by tokens => tokens.length
decreasing_by
  · simp only [List.length_cons]; omega
  · have := closeParen?_length_le h
    simp only [List.length_cons]; omega
  · simp only [List.length_cons]; omega

/-- `name type [settings]`; what stands between the type and the settings is no part of the field. -/
def read? (source : Text) : Option FieldHead :=
  match tokens source with
  | name :: type :: rest =>
    if name.isIdentifier && type.isIdentifier then
      let last := typeEnd type.stop rest
      let list : SettingList := match last.rest with
        | ⟨.openBracket, _, _⟩ :: rest => SettingList.read source rest
        | rest => ⟨[], rest, true⟩
      some {
        name := name.name?.getD []
        nameStart := name.start
        nameStop := name.stop
        dataType := (source.slice type.start last.stop).trimEnd
        typeStart := type.start
        typeStop := last.stop
        settings := list.settings
        unterminated := last.unterminated || !list.closed }
    else none
  | _ => none

end FieldHead

/-- The note of a line `Note: '...'`: `none` when the line is no note, no text when it has none. -/
def noteLine? (source : Text) : Option (Option Text) :=
  match tokens source with
  | x :: ⟨.colon, _, _⟩ :: rest =>
    if x.isWord "note" then
      match rest with
      | ⟨.str content, _, _⟩ :: _ => some (some content)
      | _ => some none
    else none
  | _ => none

end SchemaDiagram
