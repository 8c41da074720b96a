import SchemaDiagram.Text.Blank

/-! # Lines of code

Schema text is read line by line. A line's code is the line with comments blanked out, so that
columns stay where they are; braces in strings and comments are ordinary characters of it, all
other braces are events that open and close blocks.
-/
namespace SchemaDiagram

/-- What the reader is inside of between two characters. -/
inductive ScanState
  | code
  | blockComment
  /-- A string of one line; `quote` ends it. -/
  | quoted (quote : Char)
  /-- A string between three apostrophes, which may run over several lines. -/
  | tripleQuoted
  deriving DecidableEq, Repr

/-- A string of one line ends with its line. -/
def ScanState.endLine : ScanState → ScanState
  | .quoted _ => .code
  | s => s

/-- A character of a line's code. -/
inductive Glyph
  | plain (c : Char)
  | openBrace
  | closeBrace
  deriving DecidableEq, Repr

def Glyph.char : Glyph → Char
  | .plain c => c
  | .openBrace => '\x7b'
  | .closeBrace => '\x7d'

/-- A character that starts a string of one line. -/
def isQuote (c : Char) : Bool := c == '\'' || c == '"' || c == '\x60'

/-- One character outside strings and comments, and the state behind it. -/
def scanCodeChar (c : Char) : Glyph × ScanState :=
  if c = '\x7b' then (.openBrace, .code)
  else if c = '\x7d' then (.closeBrace, .code)
  else (.plain c, if isQuote c then .quoted c else .code)

/-- The code of the rest of a line, and the state at its end. A comment's characters become spaces;
a comment of one line ends the code. -/
def scanChars : ScanState → Text → List Glyph × ScanState
  | s, [] => ([], s)
  | .blockComment, '*' :: '/' :: rest =>
    let (glyphs, s) := scanChars .code rest
    (.plain ' ' :: .plain ' ' :: glyphs, s)
  | .blockComment, _ :: rest =>
    let (glyphs, s) := scanChars .blockComment rest
    (.plain ' ' :: glyphs, s)
  | .quoted quote, '\\' :: c :: rest =>
    let (glyphs, s) := scanChars (.quoted quote) rest
    (.plain '\\' :: .plain c :: glyphs, s)
  | .quoted quote, c :: rest =>
    let (glyphs, s) := scanChars (if c = quote then .code else .quoted quote) rest
    (.plain c :: glyphs, s)
  | .tripleQuoted, '\'' :: '\'' :: '\'' :: rest =>
    let (glyphs, s) := scanChars .code rest
    (.plain '\'' :: .plain '\'' :: .plain '\'' :: glyphs, s)
  | .tripleQuoted, c :: rest =>
    let (glyphs, s) := scanChars .tripleQuoted rest
    (.plain c :: glyphs, s)
  | .code, '/' :: '/' :: _ => ([], .code)
  | .code, '/' :: '*' :: rest =>
    let (glyphs, s) := scanChars .blockComment rest
    (.plain ' ' :: .plain ' ' :: glyphs, s)
  | .code, '\'' :: '\'' :: '\'' :: rest =>
    let (glyphs, s) := scanChars .tripleQuoted rest
    (.plain '\'' :: .plain '\'' :: .plain '\'' :: glyphs, s)
  | .code, c :: rest =>
    let (glyph, next) := scanCodeChar c
    let (glyphs, s) := scanChars next rest
    (glyph :: glyphs, s)

/-- A brace, or a run of text between braces; `start` is its byte offset in the line's code. -/
inductive Event
  | text (start : Nat) (content : Text)
  | openBrace (start : Nat)
  | closeBrace (start : Nat)
  deriving DecidableEq, Repr

namespace Event

def start : Event → Nat
  | text start _ | openBrace start | closeBrace start => start

/-- The characters of the code that the event stands for. -/
def content : Event → Text
  | text _ content => content
  | openBrace _ => ['\x7b']
  | closeBrace _ => ['\x7d']

def stop (e : Event) : Nat := e.start + e.content.bytes

/-- The events of code that starts at byte `start`. -/
def ofGlyphs : Nat → List Glyph → List Event
  | _, [] => []
  | start, .openBrace :: rest => openBrace start :: ofGlyphs (start + 1) rest
  | start, .closeBrace :: rest => closeBrace start :: ofGlyphs (start + 1) rest
  | start, .plain c :: rest =>
    match ofGlyphs (start + c.utf8Size) rest with
    | text _ content :: more => text start (c :: content) :: more
    | more => text start [c] :: more

end Event

/-- A line of schema text. -/
structure Line where
  /-- Lines count from 1. -/
  number : Nat
  /-- The line starts inside a triple-quoted string. -/
  continuesString : Bool
  glyphs : List Glyph
  deriving DecidableEq, Repr

namespace Line

/-- The line with comments replaced by spaces. -/
def code (l : Line) : Text := l.glyphs.map Glyph.char

def events (l : Line) : List Event := Event.ofGlyphs 0 l.glyphs

/-- Column of a byte offset into the code; columns count characters from 1. -/
def column (l : Line) (offset : Nat) : Nat := (l.code.takeBytes offset).length + 1

/-- Column one past the last character that is no blank, at least 2. -/
def endColumn (l : Line) : Nat := max 2 (l.column l.code.trimEnd.bytes)

end Line

/-- A carriage return in front of the line feed belongs to the line end. -/
def dropReturn (raw : Text) : Text :=
  match raw.getLast? with
  | some '\r' => raw.dropLast
  | _ => raw

/-- The lines with the given texts, numbered from `number`, read in state `s`. -/
def scanLines : ScanState → Nat → List Text → List Line
  | _, _, [] => []
  | s, number, raw :: rest =>
    let (glyphs, s') := scanChars s (dropReturn raw)
    ⟨number, s = .tripleQuoted, glyphs⟩ :: scanLines s'.endLine (number + 1) rest

def scan (t : Text) : List Line := scanLines .code 1 t.lines

/-! ## Events tile the code -/

theorem Event.flatMap_content_ofGlyphs (start : Nat) (glyphs : List Glyph) :
    (Event.ofGlyphs start glyphs).flatMap Event.content = glyphs.map Glyph.char := by
  induction glyphs generalizing start with
  | nil => rfl
  | cons g rest ih =>
    cases g with
    | openBrace => simp [Event.ofGlyphs, Event.content, Glyph.char, ih]
    | closeBrace => simp [Event.ofGlyphs, Event.content, Glyph.char, ih]
    | plain c =>
      have h := ih (start + c.utf8Size)
      simp only [Event.ofGlyphs]
      split <;> simp_all [Event.content, Glyph.char]

theorem Line.flatMap_content_events (l : Line) : l.events.flatMap Event.content = l.code :=
  Event.flatMap_content_ofGlyphs 0 l.glyphs

end SchemaDiagram
