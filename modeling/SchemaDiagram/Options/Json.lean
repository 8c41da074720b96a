import SchemaDiagram.Text.Basic

/-! # JSON

Options come as a JSON document. The reader is strict: nothing but the document may stand in the
text. Numbers stay as they are written until their value is asked for.
-/
namespace SchemaDiagram

/-- A number as written. -/
structure Numeral where
  negative : Bool
  /-- The digits in front of the point. -/
  whole : Text
  /-- The digits behind the point, if there is one. -/
  fraction : Option Text
  /-- The sign and the digits of the exponent, if there is one. -/
  exponent : Option (Bool × Text)
  deriving DecidableEq, Repr

/-- A string with half of a surrogate pair is `none`: it stands for no text. -/
inductive Json
  | null
  | bool (b : Bool)
  | number (n : Numeral)
  | string (s : Option Text)
  | array (items : List Json)
  | object (members : List (Option Text × Json))
  deriving Repr

namespace Json

def isBlank (c : Char) : Bool := c == ' ' || c == '\n' || c == '\r' || c == '\t'

def skipBlanks (t : Text) : Text := t.dropWhile isBlank

/-! ## Strings -/

/-- A character of a string, or a 16-bit unit written by its number. -/
inductive Piece
  | char (c : Char)
  | unit (n : Nat)
  deriving DecidableEq, Repr

def hexDigit? (c : Char) : Option Nat :=
  if c.isDigit then some (c.toNat - 48)
  else if 'a' ≤ c ∧ c ≤ 'f' then some (c.toNat - 87)
  else if 'A' ≤ c ∧ c ≤ 'F' then some (c.toNat - 55)
  else none

def hexUnit? (a b c d : Char) : Option Nat := do
  return (((← hexDigit? a) * 16 + (← hexDigit? b)) * 16 + (← hexDigit? c)) * 16 + (← hexDigit? d)

/-- The character that a backslash and a letter stand for. -/
def escaped? (c : Char) : Option Char :=
  if c = '"' ∨ c = '\\' ∨ c = '/' then some c
  else if c = 'b' then some (Char.ofNat 8)
  else if c = 'f' then some (Char.ofNat 12)
  else if c = 'n' then some '\n'
  else if c = 'r' then some '\r'
  else if c = 't' then some '\t'
  else none

/-- The pieces of a string up to its closing quote, and what follows it. -/
def readPieces : Text → Option (List Piece × Text)
  | [] => none
  | '"' :: rest => some ([], rest)
  | '\\' :: 'u' :: a :: b :: c :: d :: rest => do
    let unit ← hexUnit? a b c d
    let (pieces, after) ← readPieces rest
    return (.unit unit :: pieces, after)
  | '\\' :: e :: rest => do
    let c ← escaped? e
    let (pieces, after) ← readPieces rest
    return (.char c :: pieces, after)
  | c :: rest =>
    if c = '\\' ∨ c.toNat < 0x20 then none
    else do
      let (pieces, after) ← readPieces rest
      return (.char c :: pieces, after)

def isHighSurrogate (n : Nat) : Bool := 0xD800 ≤ n && n < 0xDC00

def isLowSurrogate (n : Nat) : Bool := 0xDC00 ≤ n && n < 0xE000

/-- The text of a string. A high surrogate and a low one behind it make one character; neither
stands alone. -/
def joinPieces : List Piece → Option Text
  | [] => some []
  | .unit high :: .unit low :: rest =>
    if isHighSurrogate high then
      if isLowSurrogate low then
        (joinPieces rest).map (Char.ofNat (0x10000 + (high - 0xD800) * 0x400 + (low - 0xDC00)) :: ·)
      else none
    else if isLowSurrogate high then none
    else (joinPieces (.unit low :: rest)).map (Char.ofNat high :: ·)
  | .unit n :: rest =>
    if isHighSurrogate n || isLowSurrogate n then none else (joinPieces rest).map (Char.ofNat n :: ·)
  | .char c :: rest => (joinPieces rest).map (c :: ·)

/-! ## Numbers -/

/-- At least one digit, and what follows the digits. -/
def readDigits (t : Text) : Option (Text × Text) :=
  let digits := t.takeWhile Char.isDigit
  if digits.isEmpty then none else some (digits, t.dropWhile Char.isDigit)

/-- The digits in front of the point; a zero is followed by no other digit. -/
def readWhole : Text → Option (Text × Text)
  | '0' :: rest => some (['0'], rest)
  | t => readDigits t

def readFraction : Text → Option (Option Text × Text)
  | '.' :: rest => (readDigits rest).map fun (digits, after) => (some digits, after)
  | t => some (none, t)

def readExponent : Text → Option (Option (Bool × Text) × Text)
  | c :: rest =>
    if c = 'e' ∨ c = 'E' then
      match rest with
      | '-' :: rest => (readDigits rest).map fun (digits, after) => (some (true, digits), after)
      | '+' :: rest => (readDigits rest).map fun (digits, after) => (some (false, digits), after)
      | rest => (readDigits rest).map fun (digits, after) => (some (false, digits), after)
    else some (none, c :: rest)
  | [] => some (none, [])

def readNumeral (negative : Bool) (t : Text) : Option (Numeral × Text) := do
  let (whole, t) ← readWhole t
  let (fraction, t) ← readFraction t
  let (exponent, t) ← readExponent t
  return (⟨negative, whole, fraction, exponent⟩, t)

/-! ## Values -/

mutual

/-- The value at the front of a text, and what follows it; `fuel` bounds the calls on the way to its
innermost part. -/
def readValue : Nat → Text → Option (Json × Text)
  | 0, _ => none
  | fuel + 1, t =>
    match skipBlanks t with
    | 'n' :: 'u' :: 'l' :: 'l' :: rest => some (.null, rest)
    | 't' :: 'r' :: 'u' :: 'e' :: rest => some (.bool true, rest)
    | 'f' :: 'a' :: 'l' :: 's' :: 'e' :: rest => some (.bool false, rest)
    | '"' :: rest => (readPieces rest).map fun (pieces, after) => (.string (joinPieces pieces), after)
    | '[' :: rest =>
      match skipBlanks rest with
      | ']' :: after => some (.array [], after)
      | rest => (readItems fuel rest).map fun (items, after) => (.array items, after)
    | '\x7b' :: rest =>
      match skipBlanks rest with
      | '\x7d' :: after => some (.object [], after)
      | rest => (readMembers fuel rest).map fun (members, after) => (.object members, after)
    | '-' :: rest => (readNumeral true rest).map fun (n, after) => (.number n, after)
    | rest => (readNumeral false rest).map fun (n, after) => (.number n, after)

/-- The items of an array up to its closing bracket; there is at least one. -/
def readItems : Nat → Text → Option (List Json × Text)
  | 0, _ => none
  | fuel + 1, t => do
    let (item, rest) ← readValue fuel t
    match skipBlanks rest with
    | ',' :: rest =>
      let (items, after) ← readItems fuel rest
      return (item :: items, after)
    | ']' :: after => return ([item], after)
    | _ => none

/-- The members of an object up to its closing brace; there is at least one. -/
def readMembers : Nat → Text → Option (List (Option Text × Json) × Text)
  | 0, _ => none
  | fuel + 1, t =>
    match skipBlanks t with
    | '"' :: rest => do
      let (pieces, rest) ← readPieces rest
      match skipBlanks rest with
      | ':' :: rest =>
        let (value, rest) ← readValue fuel rest
        let member := (joinPieces pieces, value)
        match skipBlanks rest with
        | ',' :: rest =>
          let (members, after) ← readMembers fuel rest
          return (member :: members, after)
        | '\x7d' :: after => return ([member], after)
        | _ => none
      | _ => none
    | _ => none

end

/-- The value that a text holds with nothing but blanks around it. Every call takes at least one
character, or is followed by one that does. -/
def read? (t : Text) : Option Json := do
  let (value, rest) ← readValue (2 * t.length + 2) t
  if (skipBlanks rest).isEmpty then some value else none

end Json
end SchemaDiagram
