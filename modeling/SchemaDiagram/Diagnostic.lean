import SchemaDiagram.Text.Basic

/-! # Diagnostics

Problems found in a schema text, each with the place it is marked at.
-/
namespace SchemaDiagram

inductive Severity
  /-- The text cannot be trusted to describe a schema. -/
  | error
  /-- Advice; the schema is drawn all the same. -/
  | warning
  deriving DecidableEq, Repr

def Severity.name : Severity → String
  | error => "error"
  | warning => "warning"

/-- A mark on one line, from a column up to `endColumn`, which is one past the last character. -/
structure Diagnostic where
  severity : Severity
  line : Nat
  column : Nat
  endColumn : Nat
  message : String
  deriving DecidableEq, Repr

namespace Diagnostic

/-- The mark for a place that may be out of range: lines and columns start at 1, and a mark is at
least one column wide. -/
def mark (severity : Severity) (line column endColumn : Nat) (message : String) : Diagnostic where
  severity
  line := max 1 line
  column := max 1 column
  endColumn := max endColumn (max 1 column + 1)
  message

/-- Every mark ends on the line it starts on. -/
def endLine (d : Diagnostic) : Nat := d.line

/-- What all diagnostics give as their source. -/
def origin : String := "validation"

def text (d : Diagnostic) : String :=
  d.severity.name ++ "[" ++ toString d.line ++ ":" ++ toString d.column ++ "]: " ++ d.message

/-- `d` starts before `e` in the text. -/
def before (d e : Diagnostic) : Bool := d.line < e.line || d.line == e.line && d.column < e.column

theorem one_le_line_mark (s : Severity) (l c e : Nat) (m : String) : 1 ≤ (mark s l c e m).line :=
  Nat.le_max_left 1 l

theorem column_lt_endColumn_mark (s : Severity) (l c e : Nat) (m : String) :
    (mark s l c e m).column < (mark s l c e m).endColumn := by
  simp only [mark]; omega

end Diagnostic

/-- The diagnostics of a text, in the order they are reported. -/
structure Report where
  diagnostics : List Diagnostic
  deriving DecidableEq, Repr

namespace Report

def errors (r : Report) : List Diagnostic := r.diagnostics.filter (·.severity = .error)

def warnings (r : Report) : List Diagnostic := r.diagnostics.filter (·.severity = .warning)

/-- A text is valid when no error is reported; warnings do not count. -/
def isValid (r : Report) : Bool := r.errors.isEmpty

/-- The first of those diagnostics that start earliest in the text. -/
def earliest (ds : List Diagnostic) : Option Diagnostic :=
  ds.foldl (fun best d => match best with
    | some b => if d.before b then some d else some b
    | none => some d) none

/-- Where to jump: the earliest error, or without errors the earliest warning. -/
def jumpTarget? (r : Report) : Option Diagnostic := (earliest r.errors).or (earliest r.warnings)

end Report
end SchemaDiagram
