import SchemaDiagram.Text.Blank
import SchemaDiagram.Text.Letter
import SchemaDiagram.Text.LowerCase
import SchemaDiagram.Schema.RelationKind

/-! # Tokens

A statement is read as a list of tokens. Reading never fails: a character that starts no token is a
token of its own, and a string without its closing quote runs to the end.
-/
namespace SchemaDiagram

inductive Token
  | word (text : Text)
  | str (content : Text)
  | backtick (content : Text)
  | openBracket
  | closeBracket
  | openParen
  | closeParen
  | comma
  | colon
  | dot
  | op (kind : RelationKind)
  | other (c : Char)
  deriving DecidableEq, Repr

/-- A token with the bytes of the statement it stands at. -/
structure Lexeme where
  token : Token
  start : Nat
  stop : Nat
  deriving DecidableEq, Repr

/-- A character of a bare word. -/
def isWordChar (c : Char) : Bool :=
  Text.isLetter c || Text.isNumber c || c == '_' || c == '#' || c == '$'

/-! ## Strings -/

/-- The content of a string that ends at `quote`, and what follows it. A backslash stands for the
character after it. -/
def readQuoted (quote : Char) : Text → Text × Text
  | [] => ([], [])
  | '\\' :: c :: rest =>
    let (content, after) := readQuoted quote rest
    (c :: content, after)
  | c :: rest =>
    if c = quote then ([], rest)
    else if c = '\\' then ([], [])
    else
      let (content, after) := readQuoted quote rest
      (c :: content, after)

/-- The content of a string that ends at three apostrophes, and what follows it. -/
def readTripleQuoted : Text → Text × Text
  | [] => ([], [])
  | '\'' :: '\'' :: '\'' :: rest => ([], rest)
  | c :: rest =>
    let (content, after) := readTripleQuoted rest
    (c :: content, after)

theorem readQuoted_length_le (quote : Char) (t : Text) : (readQuoted quote t).2.length ≤ t.length := by
  fun_induction readQuoted quote t <;> simp_all <;> omega

theorem readTripleQuoted_length_le (t : Text) : (readTripleQuoted t).2.length ≤ t.length := by
  fun_induction readTripleQuoted t <;> simp_all <;> omega

/-! ## Reading -/

/-- The token that starts with `c`, which is no blank, and what follows it. -/
def Token.read (c : Char) (rest : Text) : Token × Text :=
  match c, rest with
  | '[', rest => (.openBracket, rest)
  | ']', rest => (.closeBracket, rest)
  | '(', rest => (.openParen, rest)
  | ')', rest => (.closeParen, rest)
  | ',', rest => (.comma, rest)
  | ':', rest => (.colon, rest)
  | '.', rest => (.dot, rest)
  | '-', rest => (.op .oneToOne, rest)
  | '>', rest => (.op .forward, rest)
  | '<', '>' :: rest => (.op .manyToMany, rest)
  | '<', rest => (.op .backward, rest)
  | '\'', '\'' :: '\'' :: rest => let (content, after) := readTripleQuoted rest; (.str content, after)
  | '\'', rest => let (content, after) := readQuoted '\'' rest; (.str content, after)
  | '"', rest => let (content, after) := readQuoted '"' rest; (.str content, after)
  | '\x60', rest => let (content, after) := readQuoted '\x60' rest; (.backtick content, after)
  | c, rest =>
    if isWordChar c then (.word (c :: rest.takeWhile isWordChar), rest.dropWhile isWordChar)
    else (.other c, rest)

theorem Token.read_length_le (c : Char) (rest : Text) : (Token.read c rest).2.length ≤ rest.length := by
  unfold Token.read
  split <;> try simp
  · have := readTripleQuoted_length_le ‹_›; omega
  · exact readQuoted_length_le _ _
  · exact readQuoted_length_le _ _
  · exact readQuoted_length_le _ _
  · split
    · exact (List.dropWhile_suffix _).length_le
    · simp

/-- The tokens of a text that starts at byte `start`. -/
def tokensFrom (start : Nat) : Text → List Lexeme
  | [] => []
  | c :: rest =>
    if Text.isBlank c then tokensFrom (start + c.utf8Size) rest
    else
      let read := Token.read c rest
      let stop := start + (c.utf8Size + Text.bytes rest - read.2.bytes)
      ⟨read.1, start, stop⟩ :: tokensFrom stop read.2
termination_by t => t.length
decreasing_by
  · simp
  · have := Token.read_length_le c rest
    simp only [List.length_cons]
    omega

def tokens (t : Text) : List Lexeme := tokensFrom 0 t

/-- The first token of a text. -/
def firstToken? (t : Text) : Option Lexeme := (tokens t).head?

namespace Lexeme

/-- A bare word that reads `keyword`, in capitals or small letters. -/
def isWord (x : Lexeme) (keyword : String) : Bool :=
  match x.token with
  | .word w => Text.equalIgnoringCase w keyword.toList
  | _ => false

/-- The name given by a bare word or a string. -/
def name? (x : Lexeme) : Option Text :=
  match x.token with
  | .word w => some w
  | .str s => some s
  | _ => none

/-- A word that starts with a letter or an underscore, or a string that is not empty. -/
def isIdentifier (x : Lexeme) : Bool :=
  match x.token with
  | .word (c :: _) => Text.isLetter c || c == '_'
  | .str (_ :: _) => true
  | _ => false

end Lexeme
end SchemaDiagram
