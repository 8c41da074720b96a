import SchemaDiagram.Check.Validation
import SchemaDiagram.Schema.Extract

/-! # References inside tables

Extraction takes a reference wherever it stands. Validation asks every line of a table that is no note to be a
field. So a reference without a name is reported as a field that is none, and a reference with a name is read as
a field called `Ref` that has the name as its type. Nothing is reported about a note.
-/
namespace SchemaDiagram

/-! ## What is reported about one line -/

/-- What the checks of lines of tables find in one of them. -/
structure LineReport where
  syntaxError : Option Diagnostic
  unknownType : Option Diagnostic
  settings : List Diagnostic
  deriving DecidableEq, Repr

namespace LineReport

def empty : LineReport := ⟨none, none, []⟩

def syntaxError? (s : Statement) : Option Diagnostic :=
  if (noteLine? s.text).isSome || (FieldHead.read? s.text).any (!·.unterminated) then none
  else some (Problem.fieldSyntax.markAll s)

def unknownType? (enums : List Text) (s : Statement) (field : FieldHead) : Option Diagnostic :=
  let base := field.baseType
  if isKnownType enums base then none
  else
    let fix := (correction typeTypos base).or (nearestType base)
    some ((Problem.unknownType field.dataType fix).markIn s field.typeStart field.typeStop)

def settingProblems (s : Statement) (field : FieldHead) : List Diagnostic :=
  if field.unterminated then []
  else field.settings.filterMap fun setting =>
    (settingProblem? setting).map fun p => p.markIn s setting.start setting.stop

/-- The report of a line in a text with enums of the given names. -/
def ofStatement (enums : List Text) (s : Statement) : LineReport where
  syntaxError := syntaxError? s
  unknownType := (FieldHead.read? s.text).bind (unknownType? enums s)
  settings := match FieldHead.read? s.text with
    | some field => settingProblems s field
    | none => []

/-- The reports of all lines make up what the three checks find. -/
structure Covers (source : Source) (report : Statement → LineReport) : Prop where
  fieldSyntax : checkFieldSyntax source =
    (tableStatements source.outline).filterMap fun s => (report s).syntaxError
  types : checkTypes source = (tableStatements source.outline).filterMap fun s => (report s).unknownType
  settings : checkSettings source = (tableStatements source.outline).flatMap fun s => (report s).settings

theorem covers (source : Source) : Covers source (ofStatement (enumNames source.outline)) where
  fieldSyntax := rfl
  types := rfl
  settings := rfl

end LineReport

/-! ## Reading references as fields -/

theorem Text.isAlpha_of_toLower {c : Char} (h : c.toLower.isLower = true) : c.isAlpha = true := by
  have hcases : c.isUpper = true ∨ c.isLower = true := by
    by_cases hupper : c.val ≥ 'A'.val ∧ c.val ≤ 'Z'.val
    · exact .inl (decide_eq_true hupper)
    · have hsame : c.toLower = c := dif_neg hupper
      exact .inr (hsame ▸ h)
  exact (Bool.or_eq_true _ _).mpr hcases

theorem Lexeme.isIdentifier_of_isWord_ref {x : Lexeme} (h : x.isWord "ref" = true) : x.isIdentifier = true := by
  simp only [isWord] at h
  split at h
  · rename_i w hw
    cases w with
    | nil => cases h
    | cons c rest =>
        have hc : c.toLower = 'r' := by
          have hmap : c.toLower :: rest.map Char.toLower = ['r', 'e', 'f'] := eq_of_beq h
          exact (List.cons.inj hmap).1
        have hletter := Text.isLetter_of_isAlpha (Text.isAlpha_of_toLower (by rw [hc]; rfl))
        simp [isIdentifier, hw, hletter]
  · cases h

theorem FieldHead.read?_of_colon {source : Text} {x : Lexeme} {start stop : Nat} {rest : List Lexeme}
    (h : tokens source = x :: ⟨.colon, start, stop⟩ :: rest) : FieldHead.read? source = none := by
  simp [read?, h, Lexeme.isIdentifier]

/-- A field that is made up of two tokens, the second one as its type. -/
def FieldHead.ofTokens (source : Text) (name type : Lexeme) : FieldHead where
  name := name.name?.getD []
  nameStart := name.start
  nameStop := name.stop
  dataType := (source.slice type.start type.stop).trimEnd
  typeStart := type.start
  typeStop := type.stop
  settings := []
  unterminated := false

/-- A colon behind the second word ends a field. -/
theorem FieldHead.read?_of_named {source : Text} {x y : Lexeme} {start stop : Nat} {rest : List Lexeme}
    (h : tokens source = x :: y :: ⟨.colon, start, stop⟩ :: rest) (hx : x.isIdentifier = true)
    (hy : y.isIdentifier = true) : FieldHead.read? source = some (ofTokens source x y) := by
  have hend : typeEnd y.stop (⟨.colon, start, stop⟩ :: rest) = ⟨y.stop, ⟨.colon, start, stop⟩ :: rest, false⟩ := by
    rw [typeEnd.eq_def]
  simp [read?, h, hx, hy, hend, ofTokens]

theorem tokens_of_noteLine? {source : Text} {note : Option Text} (h : noteLine? source = some note) :
    ∃ x start stop rest, tokens source = x :: ⟨.colon, start, stop⟩ :: rest := by
  simp only [noteLine?] at h
  split at h
  · exact ⟨_, _, _, _, ‹_›⟩
  · cases h

/-- A reference is the word `Ref` with a colon behind it, or with a name between them. -/
theorem tokens_of_refStatement {source : Text} {r : RefStatement} (h : RefStatement.read? source = some r) :
    (r.name = none ∧ ∃ x start stop rest, tokens source = x :: ⟨.colon, start, stop⟩ :: rest) ∨
    ∃ x y start stop rest, tokens source = x :: y :: ⟨.colon, start, stop⟩ :: rest ∧
      x.isIdentifier = true ∧ y.isIdentifier = true ∧ r.name = y.name? := by
  simp only [RefStatement.read?] at h
  split at h
  · rename_i x rest htokens
    obtain ⟨hword, h⟩ := Option.ite_none_right_eq_some.mp h
    split at h
    · obtain ⟨body, -, rfl⟩ := Option.map_eq_some_iff.mp h
      exact .inl ⟨rfl, _, _, _, _, htokens⟩
    · obtain ⟨hname, h⟩ := Option.ite_none_right_eq_some.mp h
      obtain ⟨body, -, rfl⟩ := Option.map_eq_some_iff.mp h
      exact .inr ⟨_, _, _, _, _, htokens, Lexeme.isIdentifier_of_isWord_ref hword, hname, rfl⟩
    · cases h
  · cases h

/-! ## Reports of notes and references -/

theorem TableLine.read_eq_note_iff {source : Text} {note : Option Text} :
    read source = .note note ↔ noteLine? source = some note := by
  simp only [read]
  split
  · simp [*]
  · split <;> (try split) <;> simp [*]

theorem TableLine.read_eq_reference_iff {source : Text} :
    read source = .reference ↔ noteLine? source = none ∧ (RefStatement.read? source).isSome = true := by
  simp only [read]
  split
  · simp [*]
  · split <;> (try split) <;> simp_all

namespace LineReport

variable {enums : List Text} {s : Statement}

theorem ofStatement_of_note {note : Option Text} (h : noteLine? s.text = some note) : ofStatement enums s = empty := by
  obtain ⟨x, start, stop, rest, htokens⟩ := tokens_of_noteLine? h
  have hfield := FieldHead.read?_of_colon htokens
  simp [ofStatement, syntaxError?, h, hfield, empty]

theorem ofStatement_of_no_field (hnote : noteLine? s.text = none) (hfield : FieldHead.read? s.text = none) :
    ofStatement enums s = ⟨some (Problem.fieldSyntax.markAll s), none, []⟩ := by
  simp [ofStatement, syntaxError?, hnote, hfield]

theorem ofStatement_of_bare_field {field : FieldHead} (hfield : FieldHead.read? s.text = some field)
    (hsettings : field.settings = []) (hclosed : field.unterminated = false) :
    ofStatement enums s = ⟨none, unknownType? enums s field, []⟩ := by
  simp [ofStatement, syntaxError?, settingProblems, hfield, hsettings, hclosed]

/-- The report of a reference on a line of a table: without a name it is no field, with a name it is a field of
this type. Its settings are not looked at in either case. -/
inductive OfReference (enums : List Text) (s : Statement) (r : RefStatement) : LineReport → Prop
  | unnamed (h : r.name = none) : OfReference enums s r ⟨some (Problem.fieldSyntax.markAll s), none, []⟩
  | named (keyword name : Lexeme) (rest : List Lexeme) (htokens : tokens s.text = keyword :: name :: rest)
      (h : r.name = name.name?) (hname : name.isIdentifier = true) :
      OfReference enums s r ⟨none, unknownType? enums s (.ofTokens s.text keyword name), []⟩

theorem ofReference {r : RefStatement} (hnote : noteLine? s.text = none) (hr : RefStatement.read? s.text = some r) :
    OfReference enums s r (ofStatement enums s) := by
  rcases tokens_of_refStatement hr with
    ⟨hname, x, start, stop, rest, htokens⟩ | ⟨x, y, start, stop, rest, htokens, hx, hy, hname⟩
  · rw [ofStatement_of_no_field hnote (FieldHead.read?_of_colon htokens)]
    exact .unnamed hname
  · rw [ofStatement_of_bare_field (FieldHead.read?_of_named htokens hx hy) rfl rfl]
    exact .named x y _ htokens hname hy

end LineReport

/-- The report of every line of a table that extraction does not take for a field: nothing for a note, and for a
reference, whose relationship is extracted, what its name calls for. -/
theorem table_line_reports (text : Text) :
    let source := Source.ofText text
    let enums := enumNames source.outline
    LineReport.Covers source (LineReport.ofStatement enums) ∧
    ∀ s ∈ tableStatements source.outline,
      (∀ note, TableLine.read s.text = .note note → LineReport.ofStatement enums s = .empty) ∧
      (TableLine.read s.text = .reference → ∃ r, RefStatement.read? s.text = some r ∧
        source.outline.relationship? s = some (Relationship.ofBody r.body r.name) ∧
        LineReport.OfReference enums s r (LineReport.ofStatement enums s)) := by
  intro source enums
  refine ⟨LineReport.covers source, fun s hs => ⟨fun note hnote => ?_, fun href => ?_⟩⟩
  · exact LineReport.ofStatement_of_note (TableLine.read_eq_note_iff.mp hnote)
  · obtain ⟨hnote, href⟩ := TableLine.read_eq_reference_iff.mp href
    obtain ⟨r, hr⟩ := Option.isSome_iff_exists.mp href
    obtain ⟨-, hs⟩ := List.mem_filter.mp hs
    rw [Bool.and_eq_true, Option.isNone_iff_eq_none] at hs
    refine ⟨r, hr, ?_, LineReport.ofReference hnote hr⟩
    cases hc : s.context with
    | table block => simp [Outline.relationship?, hs.2, hc, hr]
    | _ => simp [Context.isTable, hc] at hs

def linesOfAllKinds : Text :=
  "Table a \x7b\n x int\n Note: 'x'\n Ref: a.x > b.y\n Ref self: a.x > b.y\n\x7d".toList

theorem table_line_reports_linesOfAllKinds :
    let source := Source.ofText linesOfAllKinds
    let enums := enumNames source.outline
    let s : Statement := ⟨5, "Ref self: a.x > b.y".toList, 2, 21, .table 0, none⟩
    s ∈ tableStatements source.outline ∧ TableLine.read s.text = .reference ∧
      ∃ r, RefStatement.read? s.text = some r ∧
        source.outline.relationship? s = some (Relationship.ofBody r.body r.name) ∧
        LineReport.OfReference enums s r (LineReport.ofStatement enums s) := by
  intro source enums s
  have hs : s ∈ tableStatements source.outline := by decide +kernel
  have href : TableLine.read s.text = .reference := by
    rw [TableLine.read_eq_reference_iff]
    decide +kernel
  exact ⟨hs, href, ((table_line_reports linesOfAllKinds).2 s hs).2 href⟩

def unnamedReference : Text := "Table a \x7b\n Ref: a.x > b.y\n\x7d".toList

/-- A reference that is extracted from a table, and an error about the same line. -/
theorem unnamedReference_reported :
    (Schema.ofText unnamedReference).relationships.length = 1 ∧
      (validate unnamedReference).diagnostics = [⟨.error, 2, 2, 16, Problem.fieldSyntax.message⟩] ∧
      ¬∀ text : Text, ∀ s ∈ tableStatements (Source.ofText text).outline,
        ((∃ note, TableLine.read s.text = .note note) ∨ TableLine.read s.text = .reference) →
          LineReport.ofStatement (enumNames (Source.ofText text).outline) s = .empty := by
  refine ⟨by decide +kernel, by decide +kernel, fun h => ?_⟩
  have href : TableLine.read "Ref: a.x > b.y".toList = .reference := by
    rw [TableLine.read_eq_reference_iff]
    decide +kernel
  have hempty := h unnamedReference ⟨2, "Ref: a.x > b.y".toList, 2, 16, .table 0, none⟩ (by decide +kernel) (.inr href)
  exact absurd hempty (by decide +kernel)

end SchemaDiagram
