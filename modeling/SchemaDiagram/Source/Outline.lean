import SchemaDiagram.Source.Line
import SchemaDiagram.Source.Token

/-! # Outline

The block structure of schema text, found in one pass over its lines. Every run of text between
braces that is no blank becomes a statement. An opening brace opens a block whose header is the
statement in front of it; a closing brace closes the innermost open block.

Structure and balance are kept apart. Balance is the plain depth of braces. Structure follows the
rule that the body of a table ends at its closing brace or at the header of the next table,
whichever comes first: the blocks left open by such a header are cut short, and each is closed by a
later brace that finds no open block.
-/
namespace SchemaDiagram

inductive BlockKind
  | table
  | enum
  | ref
  /-- A block inside the body of a table. -/
  | nested
  | other
  deriving DecidableEq, Repr

/-- What a brace opens after the given header, judged by the header's first word. -/
def BlockKind.ofHeader (header : Text) : BlockKind :=
  match firstToken? header with
  | none => .other
  | some x =>
    if x.isWord "table" then .table
    else if x.isWord "enum" then .enum
    else if x.isWord "ref" then .ref
    else .other

/-- Where a statement stands; blocks go by their index. -/
inductive Context
  | topLevel
  | table (block : Nat)
  | enum (block : Nat)
  | ref (block : Nat)
  | nested
  | other
  deriving DecidableEq, Repr

namespace Context

/-- The block whose body a statement with this context belongs to. -/
def body? : Context → Option Nat
  | table block | enum block | ref block => some block
  | topLevel | nested | other => none

def isTable : Context → Bool
  | table _ => true
  | _ => false

end Context

structure Statement where
  line : Nat
  /-- Without blanks around it. Later lines of a triple-quoted string follow after line feeds. -/
  text : Text
  /-- Column of the first character. -/
  column : Nat
  /-- Column one past the last character on the first line. -/
  endColumn : Nat
  context : Context
  /-- The block this statement is the header of. -/
  opens : Option Nat
  deriving DecidableEq, Repr

/-- Column of a byte offset into the first line of the statement. -/
def Statement.columnAt (s : Statement) (offset : Nat) : Nat :=
  s.column + (s.text.firstLine.takeBytes offset).length

structure Block where
  kind : BlockKind
  /-- The statement in front of the brace. -/
  header : Option Nat
  line : Nat
  column : Nat
  closed : Bool
  /-- The statements directly inside a table, an enum or a reference block. -/
  body : List Nat
  deriving DecidableEq, Repr

/-- A closing brace where no block is open. -/
structure StrayClose where
  line : Nat
  column : Nat
  deriving DecidableEq, Repr

/-- What is known of the structure after a part of the text. -/
structure Outline where
  statements : List Statement
  blocks : List Block
  strayCloses : List StrayClose
  /-- The open blocks, innermost first. -/
  stack : List Nat
  /-- The blocks cut short and not yet closed, the next one to be closed first. -/
  cutShort : List Nat
  /-- Opening braces without a closing one. -/
  depth : Nat
  /-- The statement that a brace would have as its header. -/
  pending : Option Nat
  /-- The next run of text goes on with a triple-quoted string. -/
  continuing : Bool
  deriving DecidableEq, Repr

namespace Outline

def empty : Outline := ⟨[], [], [], [], [], 0, none, false⟩

/-- The context of what stands in the innermost open block. -/
def context (o : Outline) : Context :=
  match o.stack with
  | [] => .topLevel
  | top :: _ =>
    match (o.blocks[top]?).map Block.kind with
    | some .table => .table top
    | some .enum => .enum top
    | some .ref => .ref top
    | some .nested => .nested
    | some .other | none => .other

/-- Appends a line of a triple-quoted string to the last statement. -/
def appendToLast (o : Outline) (content : Text) : Outline :=
  { o with
    statements := o.statements.modify (o.statements.length - 1) fun s =>
      { s with text := s.text ++ '\n' :: content.trimEnd }
    continuing := false }

/-- Adds the statement that a run of text from byte `start` of `l` holds, if it holds any. -/
def addText (o : Outline) (l : Line) (start : Nat) (content : Text) : Outline :=
  let text := content.trim
  if text.isEmpty then { o with continuing := false }
  else
    let first := start + (content.bytes - content.trimStart.bytes)
    let context := o.context
    let index := o.statements.length
    { o with
      statements := o.statements ++
        [⟨l.number, text, l.column first, l.column (first + text.bytes), context, none⟩]
      blocks := match context.body? with
        | some block => o.blocks.modify block fun b => { b with body := b.body ++ [index] }
        | none => o.blocks
      pending := some index
      continuing := false }

/-- The header of a new table ends every block that is still open: the statement leaves the body it
was taken for a part of, and the open blocks are cut short. -/
def cutShortAt (o : Outline) (header : Nat) : Outline :=
  { o with
    blocks := match o.stack with
      | [] => o.blocks
      | top :: _ => o.blocks.modify top fun b =>
        if b.body.getLast? = some header then { b with body := b.body.dropLast } else b
    statements := o.statements.modify header fun s => { s with context := .topLevel }
    cutShort := o.stack ++ o.cutShort
    stack := [] }

/-- Opens a block of a kind. -/
def push (o : Outline) (kind : BlockKind) (header : Option Nat) (line column : Nat) : Outline :=
  let index := o.blocks.length
  { o with
    blocks := o.blocks ++ [⟨kind, header, line, column, false, []⟩]
    statements := match header with
      | some h => o.statements.modify h fun s => { s with opens := some index }
      | none => o.statements
    stack := index :: o.stack
    depth := o.depth + 1
    pending := none
    continuing := false }

/-- The kind that the pending statement announces for a block at top level. -/
def announced (o : Outline) : Option BlockKind :=
  o.pending.bind fun h => (o.statements[h]?).map fun s => BlockKind.ofHeader s.text

def openBrace (o : Outline) (line column : Nat) : Outline :=
  match o.context with
  | .topLevel => o.push (o.announced.getD .other) o.pending line column
  | .table _ | .nested =>
    match o.pending, o.announced with
    | some header, some .table => (o.cutShortAt header).push .table (some header) line column
    | header, _ => o.push .nested header line column
  | .enum _ | .ref _ | .other => o.push .other o.pending line column

def close (o : Outline) (block : Nat) : Outline :=
  { o with blocks := o.blocks.modify block fun b => { b with closed := true } }

def closeBrace (o : Outline) (line column : Nat) : Outline :=
  let o := { o with continuing := false, pending := none }
  if o.depth = 0 then { o with strayCloses := o.strayCloses ++ [⟨line, column⟩] }
  else
    let o := { o with depth := o.depth - 1 }
    match o.stack, o.cutShort with
    | top :: rest, _ => { o with stack := rest }.close top
    | [], next :: rest => { o with cutShort := rest }.close next
    | [], [] => o

def addEvent (l : Line) (o : Outline) : Event → Outline
  | .text start content =>
    if o.continuing && !o.statements.isEmpty then o.appendToLast content else o.addText l start content
  | .openBrace start => o.openBrace l.number (l.column start)
  | .closeBrace start => o.closeBrace l.number (l.column start)

def addLine (o : Outline) (l : Line) : Outline :=
  l.events.foldl (addEvent l) { o with continuing := l.continuesString }

def ofLines (lines : List Line) : Outline := lines.foldl addLine empty

/-! ## Views -/

def header? (o : Outline) (b : Block) : Option Statement := b.header.bind (o.statements[·]?)

/-- The statements directly inside a block. -/
def body (o : Outline) (b : Block) : List Statement := b.body.filterMap (o.statements[·]?)

/-- The statements outside all blocks. -/
def topLevel (o : Outline) : List Statement := o.statements.filter (·.context = .topLevel)

/-- Closing braces still missing at the end of the text. -/
def unclosed (o : Outline) : Nat := o.depth

end Outline

/-- The lines of a text with their outline. -/
structure Source where
  lines : List Line
  outline : Outline

namespace Source

def ofText (t : Text) : Source :=
  let lines := scan t
  ⟨lines, Outline.ofLines lines⟩

/-- The last line with code on it, or else the last line. -/
def lastCodeLine? (s : Source) : Option Line :=
  (s.lines.reverse.find? fun l => !l.code.trim.isEmpty).or s.lines.getLast?

end Source
end SchemaDiagram
