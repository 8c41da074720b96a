import SchemaDiagram.Check.Validation
import SchemaDiagram.Proofs.Access.Outline

/-! # Checked checks

A diagnostic marks columns of the first line of a statement. What the checks mark are ends of tokens, or of the
statement, and these are places between characters of that line, or are behind it.
-/
namespace SchemaDiagram
namespace Access

/-! ## Marks -/

/-- The column of a byte of a statement, at most the one behind its first line. -/
def columnAtOf (s : Statement) (offset : Nat) : Access Nat := do
  return s.column + (← upTo s.text.firstLine (min offset s.text.firstLine.bytes)).length

theorem columnAtOf_eq {s : Statement} {offset : Nat} (h : s.text.IsBoundary offset) :
    columnAtOf s offset = .ok (s.columnAt offset) := by
  have hsplit : s.text.firstLine ++ s.text.dropWhile (· ≠ '\n') = s.text := List.takeWhile_append_dropWhile
  rw [← hsplit] at h
  rw [columnAtOf, upTo_eq h.min_bytes, Text.takeBytes_min_bytes]
  rfl

def markInOf (p : Problem) (s : Statement) (start stop : Nat) : Access Diagnostic := do
  return p.mark s.line (← columnAtOf s start) (← columnAtOf s stop)

theorem markInOf_eq (p : Problem) {s : Statement} {start stop : Nat}
    (h : s.text.IsBoundary start ∧ s.text.IsBoundary stop) : markInOf p s start stop = .ok (p.markIn s start stop) := by
  rw [markInOf, columnAtOf_eq h.1, columnAtOf_eq h.2]
  rfl

def markAllOf (p : Problem) (s : Statement) : Access Diagnostic := markInOf p s 0 s.text.bytes

theorem markAllOf_eq (p : Problem) (s : Statement) : markAllOf p s = .ok (p.markAll s) :=
  markInOf_eq p ⟨s.text.isBoundary_zero, s.text.isBoundary_bytes⟩

/-! ## Tables -/

variable {o : Outline} {s : Source}

def tableHeaderOf (o : Outline) (b : Block) : Access (Option (Statement × TableHeader)) := do
  match ← headerOf o b with
  | some statement => return (← readTableHeader statement.text).map (statement, ·)
  | none => return none

def tableHeadersOf (o : Outline) : Access (List (Statement × TableHeader)) :=
  eachSome (tableHeaderOf o) (o.blocks.filter (·.kind = .table))

theorem tableHeadersOf_eq (h : o.Consistent) : tableHeadersOf o = .ok (tableHeaders o) := by
  refine eachSome_eq fun b hb => ?_
  rw [tableHeaderOf, headerOf_eq h (List.mem_of_mem_filter hb), ok_bind]
  cases o.header? b with
  | none => rfl
  | some statement =>
      simp only [readTableHeader_eq, ok_bind]
      cases hread : TableHeader.read? statement.text <;> simp [hread]

theorem read?_of_mem_tableHeaders {statement : Statement} {header : TableHeader}
    (h : (statement, header) ∈ tableHeaders o) : TableHeader.read? statement.text = some header := by
  obtain ⟨b, -, hb⟩ := List.mem_filterMap.mp h
  obtain ⟨statement', -, hb⟩ := Option.bind_eq_some_iff.mp hb
  obtain ⟨header', hread, hb⟩ := Option.bind_eq_some_iff.mp hb
  cases hb
  exact hread

def checkTableNamesOf (s : Source) : Access (List Diagnostic) := do
  eachSome (fun (statement, header) =>
    if header.name.isNone then do
      return some (← markInOf .missingTableName statement header.keywordStart header.keywordStop)
    else return none) (← tableHeadersOf s.outline)

theorem checkTableNamesOf_eq (h : s.outline.Consistent) : checkTableNamesOf s = .ok (checkTableNames s) := by
  rw [checkTableNamesOf, tableHeadersOf_eq h, ok_bind]
  refine eachSome_eq fun entry hmem => ?_
  obtain ⟨statement, header⟩ := entry
  have hspan := (spans_of_tableHeader (read?_of_mem_tableHeaders hmem)).1
  simp only
  split
  · rw [markInOf_eq _ ⟨hspan.start_boundary, hspan.stop_boundary⟩]
    rfl
  · rfl

/-- The errors for a name among the declarations of tables. -/
def duplicatesOf (declared : List (Statement × Name)) (name : Text) : Access (List Diagnostic) := do
  let sites := declared.filter fun site => site.2.value = name
  if 1 < sites.length then
    let first ← index sites 0
    let summary ← markInOf (.declaredTimes name sites.length) first.1 first.2.start first.2.stop
    return summary :: (← each (fun site => markInOf (.duplicateTable name) site.1 site.2.start site.2.stop) sites)
  else return []

def checkDuplicatesOf (s : Source) : Access (List Diagnostic) := do
  let headers ← tableHeadersOf s.outline
  let declared := headers.filterMap fun (statement, header) => header.name.map (statement, ·)
  let names := (declared.map fun (_, name) => name.value).eraseDups
  return (← each (duplicatesOf declared) names).flatten

theorem span_of_declaration {site : Statement × Name} (h : site ∈ declarations o) :
    site.1.text.HasSpan site.2.start site.2.stop := by
  obtain ⟨⟨statement, header⟩, hmem, hsite⟩ := List.mem_filterMap.mp h
  obtain ⟨name, hname, rfl⟩ := Option.map_eq_some_iff.mp hsite
  exact (spans_of_tableHeader (read?_of_mem_tableHeaders hmem)).2 name hname

theorem duplicatesOf_eq (o : Outline) (name : Text) : duplicatesOf (declarations o) name =
    .ok (match declarationsOf o name with
      | first :: second :: more =>
        let sites := first :: second :: more
        (Problem.declaredTimes name sites.length).markIn first.1 first.2.start first.2.stop ::
          sites.map fun (statement, n) => (Problem.duplicateTable name).markIn statement n.start n.stop
      | _ => []) := by
  have hsites : ∀ site ∈ declarationsOf o name, site ∈ declarations o := fun _ hsite => List.mem_of_mem_filter hsite
  have hfilter : (declarations o).filter (fun site => site.2.value = name) = declarationsOf o name := rfl
  rw [duplicatesOf, hfilter]
  generalize declarationsOf o name = sites at hsites
  rcases sites with _ | ⟨first, _ | ⟨second, more⟩⟩
  · rfl
  · rfl
  · have hfirst := span_of_declaration (hsites first List.mem_cons_self)
    have hmarks : each (fun site => markInOf (.duplicateTable name) site.1 site.2.start site.2.stop)
        (first :: second :: more) =
          .ok ((first :: second :: more).map fun site =>
            (Problem.duplicateTable name).markIn site.1 site.2.start site.2.stop) :=
      each_eq fun site hsite =>
        have hspan := span_of_declaration (hsites site hsite)
        markInOf_eq _ ⟨hspan.start_boundary, hspan.stop_boundary⟩
    simp only [List.length_cons, Nat.lt_add_left_iff_pos, Nat.zero_lt_succ, ↓reduceIte,
      index_eq (List.getElem?_cons_zero ..), ok_bind, markInOf_eq _ ⟨hfirst.start_boundary, hfirst.stop_boundary⟩,
      hmarks, pure_eq_ok]

theorem checkDuplicatesOf_eq (h : s.outline.Consistent) : checkDuplicatesOf s = .ok (checkDuplicates s) := by
  have hall : each (duplicatesOf (declarations s.outline)) (declaredNames s.outline) = _ :=
    each_eq fun name _ => duplicatesOf_eq s.outline name
  rw [checkDuplicatesOf, tableHeadersOf_eq h, ok_bind]
  change (do return (← each (duplicatesOf (declarations s.outline)) (declaredNames s.outline)).flatten) = _
  rw [hall, ok_bind, ← List.flatMap_def]
  rfl

/-! ## Braces -/

def checkBracesOf (s : Source) : Access (List Diagnostic) := do
  let stray := s.outline.strayCloses.map fun c => Problem.strayBrace.mark c.line c.column (c.column + 1)
  match s.outline.unclosed, s.lastCodeLine? with
  | n + 1, some l => return stray ++ [(Problem.missingBraces (n + 1)).mark l.number 1 (← endColumnOf l)]
  | _, _ => return stray

theorem checkBracesOf_eq (s : Source) : checkBracesOf s = .ok (checkBraces s) := by
  rw [checkBracesOf, checkBraces]
  cases s.outline.unclosed with
  | zero => simp
  | succ n =>
      cases s.lastCodeLine? with
      | none => simp
      | some l => simp [endColumnOf_eq]

/-! ## Lines of tables -/

def fieldSyntaxOf (statement : Statement) : Access (Option Diagnostic) := do
  let note ← lookUp statement.text (noteLine? statement.text)
  let field ← readField statement.text
  if note.isSome || field.any (!·.unterminated) then return none
  else return some (← markAllOf .fieldSyntax statement)

def checkFieldSyntaxOf (s : Source) : Access (List Diagnostic) := eachSome fieldSyntaxOf (tableStatements s.outline)

theorem checkFieldSyntaxOf_eq (s : Source) : checkFieldSyntaxOf s = .ok (checkFieldSyntax s) := by
  refine eachSome_eq fun statement _ => ?_
  simp only [fieldSyntaxOf, lookUp_eq, ok_bind, readField_eq, markAllOf_eq]
  split <;> rfl

def enumNameOf (o : Outline) (b : Block) : Access (Option Text) := do
  match ← headerOf o b with
  | some statement =>
    let name ← lookUp statement.text (enumHeader? statement.text)
    return name.map fun n => Text.lower n.value
  | none => return none

def enumNamesOf (o : Outline) : Access (List Text) := eachSome (enumNameOf o) (o.blocks.filter (·.kind = .enum))

theorem enumNamesOf_eq (h : o.Consistent) : enumNamesOf o = .ok (enumNames o) := by
  refine eachSome_eq fun b hb => ?_
  rw [enumNameOf, headerOf_eq h (List.mem_of_mem_filter hb), ok_bind]
  cases o.header? b with
  | none => rfl
  | some statement =>
      simp only [lookUp_eq, ok_bind]
      cases hread : enumHeader? statement.text <;> simp [hread]

def typeOf (enums : List Text) (statement : Statement) : Access (Option Diagnostic) := do
  match ← readField statement.text with
  | some field =>
    let base ← baseTypeOf field
    if isKnownType enums base then return none
    else
      let fix := (correction typeTypos base).or (nearestType base)
      return some (← markInOf (.unknownType field.dataType fix) statement field.typeStart field.typeStop)
  | none => return none

def checkTypesOf (s : Source) : Access (List Diagnostic) := do
  let enums ← enumNamesOf s.outline
  eachSome (typeOf enums) (tableStatements s.outline)

theorem checkTypesOf_eq (h : s.outline.Consistent) : checkTypesOf s = .ok (checkTypes s) := by
  rw [checkTypesOf, enumNamesOf_eq h, ok_bind]
  refine eachSome_eq fun statement _ => ?_
  rw [typeOf, readField_eq, ok_bind]
  cases hread : FieldHead.read? statement.text with
  | none => rfl
  | some field =>
      have hspan := (spans_of_field hread).1
      simp only [baseTypeOf_eq, ok_bind, Option.bind_some]
      split
      · rfl
      · rw [markInOf_eq _ ⟨hspan.start_boundary, hspan.stop_boundary⟩]
        rfl

def settingProblemsOf (statement : Statement) : Access (List Diagnostic) := do
  match ← readField statement.text with
  | some field =>
    if field.unterminated then return []
    else eachSome (fun setting => do
      match ← lookUp setting.text (settingProblem? setting) with
      | some p => return some (← markInOf p statement setting.start setting.stop)
      | none => return none) field.settings
  | none => return []

def checkSettingsOf (s : Source) : Access (List Diagnostic) := do
  return (← each settingProblemsOf (tableStatements s.outline)).flatten

theorem checkSettingsOf_eq (s : Source) : checkSettingsOf s = .ok (checkSettings s) := by
  rw [checkSettingsOf, checkSettings, List.flatMap_def, each_eq fun statement _ => ?_]
  · rfl
  · rw [settingProblemsOf, readField_eq, ok_bind]
    cases hread : FieldHead.read? statement.text with
    | none => rfl
    | some field =>
        simp only
        split
        · rfl
        · refine eachSome_eq fun setting hmem => ?_
          have hspan := (spans_of_field hread).2 setting hmem
          rw [lookUp_eq, ok_bind]
          cases settingProblem? setting with
          | none => rfl
          | some p =>
              simp only [markInOf_eq p ⟨hspan.start_boundary, hspan.stop_boundary⟩]
              rfl

/-! ## References and keywords -/

def referenceProblemOf (s : Statement) : Access (Option Problem) :=
  match s.context with
  | .topLevel => do
    if s.opens.isNone && (← lookUpFirst s.text (isRefStatement s.text)) && (← readRefStatement s.text).isNone then
      return some .referenceStatement
    else return none
  | .ref _ => do if (← readRefBody s.text).isNone then return some .referenceLine else return none
  | _ => return none

theorem referenceProblemOf_eq (s : Statement) : referenceProblemOf s = .ok (referenceProblem? s) := by
  rw [referenceProblemOf, referenceProblem?]
  cases s.context with
  | topLevel =>
      simp only [lookUpFirst_eq, readRefStatement_eq, ok_bind]
      split <;> rfl
  | ref =>
      simp only [readRefBody_eq, ok_bind]
      split <;> rfl
  | _ => rfl

def checkReferencesOf (s : Source) : Access (List Diagnostic) :=
  eachSome (fun statement => do
    match ← referenceProblemOf statement with
    | some p => return some (← markAllOf p statement)
    | none => return none) s.outline.statements

theorem checkReferencesOf_eq (s : Source) : checkReferencesOf s = .ok (checkReferences s) := by
  refine eachSome_eq fun statement _ => ?_
  rw [referenceProblemOf_eq, ok_bind]
  cases referenceProblem? statement with
  | none => rfl
  | some p =>
      simp only [markAllOf_eq]
      rfl

def keywordOf (statement : Statement) : Access (Option Diagnostic) := do
  match ← readFirst statement.text with
  | some ⟨.word word, start, stop⟩ =>
    match exactCorrection keywordTypos (Text.lower word) with
    | some fix => return some (← markInOf (.unknownKeyword word fix) statement start stop)
    | none => return none
  | _ => return none

def checkKeywordsOf (s : Source) : Access (List Diagnostic) :=
  eachSome keywordOf (s.outline.statements.filter mayStartWithKeyword)

theorem checkKeywordsOf_eq (s : Source) : checkKeywordsOf s = .ok (checkKeywords s) := by
  refine eachSome_eq fun statement _ => ?_
  rw [keywordOf, readFirst_eq, ok_bind]
  rcases hfirst : firstToken? statement.text with _ | ⟨token, start, stop⟩
  · rfl
  · have hspan := Text.hasSpan_of_mem (List.mem_of_head? hfirst)
    cases token with
    | word word =>
        simp only
        cases exactCorrection keywordTypos (Text.lower word) with
        | none => rfl
        | some fix =>
            simp only [markInOf_eq _ ⟨hspan.start_boundary, hspan.stop_boundary⟩]
            rfl
    | _ => rfl

/-! ## All checks -/

def checksOf : List (Source → Access (List Diagnostic)) :=
  [checkDuplicatesOf, checkBracesOf, checkTableNamesOf, checkFieldSyntaxOf, checkReferencesOf, checkKeywordsOf,
   checkTypesOf, checkSettingsOf]

def readReport (t : Text) : Access Report := do
  let s ← readSource t
  return ⟨(← each (fun check => check s) checksOf).flatten⟩

theorem readReport_eq (t : Text) : readReport t = .ok (validate t) := by
  have h := Outline.consistent_ofText t
  rw [readReport, readSource_eq, ok_bind]
  simp only [checksOf, each, checkDuplicatesOf_eq h, checkBracesOf_eq, checkTableNamesOf_eq h, checkFieldSyntaxOf_eq,
    checkReferencesOf_eq, checkKeywordsOf_eq, checkTypesOf_eq h, checkSettingsOf_eq, ok_bind, pure_eq_ok]
  rfl

end Access
end SchemaDiagram
