import SchemaDiagram.Proofs.Check.Place

/-! # Findings of the checks

All checks but the one of braces find problems at bytes of statements, and report lines and columns of the text.
On a statement of one line nothing is lost by that: the columns hold the very characters that the bytes hold,
whatever stands in front of the statement on its line.
-/
namespace SchemaDiagram

/-- A problem at the bytes from `start` up to `stop` of a statement. -/
structure Finding where
  problem : Problem
  statement : Statement
  start : Nat
  stop : Nat
  deriving DecidableEq

namespace Finding

def diagnostic (f : Finding) : Diagnostic := f.problem.markIn f.statement f.start f.stop

/-- The characters that the problem is found in. -/
def content (f : Finding) : Text := f.statement.text.slice f.start f.stop

/-- A problem of a whole statement. -/
def whole (s : Statement) (p : Problem) : Finding := ⟨p, s, 0, s.text.bytes⟩

/-! ## What the checks find -/

/-- The declarations of a name that several tables have. -/
def ofSites (name : Text) : List (Statement × Name) → List Finding
  | first :: second :: more =>
    let sites := first :: second :: more
    ⟨.declaredTimes name sites.length, first.1, first.2.start, first.2.stop⟩ ::
      sites.map fun (statement, n) => ⟨.duplicateTable name, statement, n.start, n.stop⟩
  | _ => []

def duplicates (o : Outline) : List Finding :=
  (declaredNames o).flatMap fun name => ofSites name (declarationsOf o name)

def tableNames (o : Outline) : List Finding :=
  (tableHeaders o).filterMap fun (statement, header) =>
    if header.name.isNone then some ⟨.missingTableName, statement, header.keywordStart, header.keywordStop⟩ else none

def fieldSyntax (o : Outline) : List Finding :=
  (tableStatements o).filterMap fun statement =>
    if (noteLine? statement.text).isSome || (FieldHead.read? statement.text).any (!·.unterminated) then none
    else some (whole statement .fieldSyntax)

def references (o : Outline) : List Finding :=
  o.statements.filterMap fun statement => (referenceProblem? statement).map (whole statement)

def keywords (o : Outline) : List Finding :=
  (o.statements.filter mayStartWithKeyword).filterMap fun statement =>
    match firstToken? statement.text with
    | some ⟨.word word, start, stop⟩ =>
      (exactCorrection keywordTypos (Text.lower word)).map fun fix =>
        ⟨.unknownKeyword word fix, statement, start, stop⟩
    | _ => none

def types (o : Outline) : List Finding :=
  (tableStatements o).filterMap fun statement =>
    (FieldHead.read? statement.text).bind fun field =>
      if isKnownType (enumNames o) field.baseType then none
      else
        let fix := (correction typeTypos field.baseType).or (nearestType field.baseType)
        some ⟨.unknownType field.dataType fix, statement, field.typeStart, field.typeStop⟩

def settings (o : Outline) : List Finding :=
  (tableStatements o).flatMap fun statement =>
    match FieldHead.read? statement.text with
    | some field =>
      if field.unterminated then []
      else field.settings.filterMap fun setting =>
        (settingProblem? setting).map fun p => ⟨p, statement, setting.start, setting.stop⟩
    | none => []

end Finding

/-- The checks of statements, each with what it finds. -/
def statementChecks : List ((Source → List Diagnostic) × (Outline → List Finding)) :=
  [(checkDuplicates, Finding.duplicates), (checkTableNames, Finding.tableNames),
   (checkFieldSyntax, Finding.fieldSyntax), (checkReferences, Finding.references),
   (checkKeywords, Finding.keywords), (checkTypes, Finding.types), (checkSettings, Finding.settings)]

namespace Finding

/-! ## What the checks report -/

variable (source : Source)

theorem diagnostic_ofSites (name : Text) (sites : List (Statement × Name)) :
    (ofSites name sites).map diagnostic =
      match sites with
      | first :: second :: more =>
        let sites := first :: second :: more
        (Problem.declaredTimes name sites.length).markIn first.1 first.2.start first.2.stop ::
          sites.map fun (statement, n) => (Problem.duplicateTable name).markIn statement n.start n.stop
      | _ => [] := by
  match sites with
  | first :: second :: more => simp [ofSites, diagnostic]
  | [] | [_] => rfl

theorem diagnostic_duplicates : (duplicates source.outline).map diagnostic = checkDuplicates source := by
  rw [duplicates, List.map_flatMap, checkDuplicates]
  exact congrArg (List.flatMap · _) (funext fun name => diagnostic_ofSites name _)

theorem diagnostic_tableNames : (tableNames source.outline).map diagnostic = checkTableNames source := by
  rw [tableNames, List.map_filterMap, checkTableNames]
  refine List.filterMap_congr fun entry _ => ?_
  dsimp only
  split <;> rfl

theorem diagnostic_fieldSyntax : (fieldSyntax source.outline).map diagnostic = checkFieldSyntax source := by
  rw [fieldSyntax, List.map_filterMap, checkFieldSyntax]
  refine List.filterMap_congr fun statement _ => ?_
  dsimp only
  split <;> rfl

theorem diagnostic_references : (references source.outline).map diagnostic = checkReferences source := by
  rw [references, List.map_filterMap, checkReferences]
  refine List.filterMap_congr fun statement _ => ?_
  rw [Option.map_map]
  rfl

theorem diagnostic_keywords : (keywords source.outline).map diagnostic = checkKeywords source := by
  rw [keywords, List.map_filterMap, checkKeywords]
  refine List.filterMap_congr fun statement _ => ?_
  rcases firstToken? statement.text with _ | ⟨token, start, stop⟩
  · rfl
  · cases token with
    | word word => exact Option.map_map ..
    | _ => rfl

theorem diagnostic_types : (types source.outline).map diagnostic = checkTypes source := by
  rw [types, List.map_filterMap, checkTypes]
  refine List.filterMap_congr fun statement _ => ?_
  rw [Option.map_bind]
  refine congrArg (Option.bind _) (funext fun field => ?_)
  dsimp only [Function.comp]
  split <;> rfl

theorem diagnostic_settings : (settings source.outline).map diagnostic = checkSettings source := by
  rw [settings, List.map_flatMap, checkSettings]
  refine congrArg (List.flatMap · _) (funext fun statement => ?_)
  cases FieldHead.read? statement.text with
  | none => rfl
  | some field =>
      dsimp only
      split
      · rfl
      · rw [List.map_filterMap]
        exact List.filterMap_congr fun setting _ => Option.map_map ..

/-- Every check of statements reports what it finds. -/
theorem diagnostic_statementChecks : ∀ c ∈ statementChecks, (c.2 source.outline).map diagnostic = c.1 source := by
  simp only [statementChecks, List.forall_mem_cons]
  exact ⟨diagnostic_duplicates source, diagnostic_tableNames source, diagnostic_fieldSyntax source,
    diagnostic_references source, diagnostic_keywords source, diagnostic_types source, diagnostic_settings source,
    nofun⟩

/-! ## Bytes of statements -/

/-- The finding is about characters of a statement of the text, one at least. -/
structure In (f : Finding) (text : Text) : Prop where
  statement_mem : f.statement ∈ (Source.ofText text).outline.statements
  span : f.statement.text.HasSpan f.start f.stop

variable {text : Text} {f : Finding}

theorem whole_in {s : Statement} (hs : s ∈ (Source.ofText text).outline.statements) (p : Problem) :
    (whole s p).In text := by
  obtain ⟨l, -, hplace⟩ := Statement.exists_on hs
  obtain ⟨c, hhead, -⟩ := Statement.exists_head hplace
  obtain ⟨rest, hrest⟩ := List.head?_eq_some_iff.mp hhead
  have hpos : 0 < s.text.bytes := by
    rw [hrest, Text.bytes_cons]
    exact Nat.lt_of_lt_of_le c.utf8Size_pos (Nat.le_add_right _ _)
  exact ⟨hs, s.text.isBoundary_zero, s.text.isBoundary_bytes, hpos⟩

theorem in_of_mem_duplicates (h : f ∈ duplicates (Source.ofText text).outline) : f.In text := by
  obtain ⟨name, -, hf⟩ := List.mem_flatMap.mp h
  have hsite : ∀ site ∈ declarationsOf (Source.ofText text).outline name, ∀ p : Problem,
      In ⟨p, site.1, site.2.start, site.2.stop⟩ text := by
    intro site hmem p
    have hdeclared := List.mem_of_mem_filter hmem
    obtain ⟨⟨s, header⟩, hheader, hname⟩ := List.mem_filterMap.mp hdeclared
    obtain ⟨n, -, rfl⟩ := Option.map_eq_some_iff.mp hname
    exact ⟨mem_statements_of_mem_tableHeaders hheader, Access.span_of_declaration hdeclared⟩
  match hsites : declarationsOf (Source.ofText text).outline name with
  | first :: second :: more =>
      rw [hsites] at hf hsite
      rcases List.mem_cons.mp hf with rfl | hf
      · exact hsite first List.mem_cons_self _
      · obtain ⟨site, hmem, rfl⟩ := List.mem_map.mp hf
        exact hsite site hmem _
  | [] | [_] =>
      rw [hsites] at hf
      cases hf

theorem in_of_mem_tableNames (h : f ∈ tableNames (Source.ofText text).outline) : f.In text := by
  obtain ⟨⟨s, header⟩, hmem, hf⟩ := List.mem_filterMap.mp h
  obtain ⟨-, hf⟩ := Option.ite_none_right_eq_some.mp hf
  obtain rfl := Option.some.inj hf
  have hspans := Access.spans_of_tableHeader (Access.read?_of_mem_tableHeaders hmem)
  exact ⟨mem_statements_of_mem_tableHeaders hmem, hspans.1⟩

theorem in_of_mem_fieldSyntax (h : f ∈ fieldSyntax (Source.ofText text).outline) : f.In text := by
  obtain ⟨s, hs, hf⟩ := List.mem_filterMap.mp h
  obtain ⟨-, hf⟩ := Option.ite_none_left_eq_some.mp hf
  obtain rfl := Option.some.inj hf
  exact whole_in (mem_statements_of_mem_tableStatements hs) _

theorem in_of_mem_references (h : f ∈ references (Source.ofText text).outline) : f.In text := by
  obtain ⟨s, hs, hf⟩ := List.mem_filterMap.mp h
  obtain ⟨p, -, rfl⟩ := Option.map_eq_some_iff.mp hf
  exact whole_in hs p

theorem in_of_mem_keywords (h : f ∈ keywords (Source.ofText text).outline) : f.In text := by
  obtain ⟨s, hs, hf⟩ := List.mem_filterMap.mp h
  split at hf
  · next word start stop hfirst =>
      obtain ⟨fix, -, rfl⟩ := Option.map_eq_some_iff.mp hf
      exact ⟨List.mem_of_mem_filter hs, Text.hasSpan_of_mem (List.mem_of_head? hfirst)⟩
  · cases hf

theorem in_of_mem_types (h : f ∈ types (Source.ofText text).outline) : f.In text := by
  obtain ⟨s, hs, hf⟩ := List.mem_filterMap.mp h
  obtain ⟨field, hread, hf⟩ := Option.bind_eq_some_iff.mp hf
  obtain ⟨-, hf⟩ := Option.ite_none_left_eq_some.mp hf
  obtain rfl := Option.some.inj hf
  exact ⟨mem_statements_of_mem_tableStatements hs, (Access.spans_of_field hread).1⟩

theorem in_of_mem_settings (h : f ∈ settings (Source.ofText text).outline) : f.In text := by
  obtain ⟨s, hs, hf⟩ := List.mem_flatMap.mp h
  split at hf
  · next field hread =>
      split at hf
      · cases hf
      · obtain ⟨setting, hmem, hf⟩ := List.mem_filterMap.mp hf
        obtain ⟨p, -, rfl⟩ := Option.map_eq_some_iff.mp hf
        exact ⟨mem_statements_of_mem_tableStatements hs, (Access.spans_of_field hread).2 setting hmem⟩
  · cases hf

theorem in_of_mem_statementChecks (text : Text) :
    ∀ c ∈ statementChecks, ∀ f ∈ c.2 (Source.ofText text).outline, f.In text := by
  simp only [statementChecks, List.forall_mem_cons]
  exact ⟨fun _ => in_of_mem_duplicates, fun _ => in_of_mem_tableNames, fun _ => in_of_mem_fieldSyntax,
    fun _ => in_of_mem_references, fun _ => in_of_mem_keywords, fun _ => in_of_mem_types,
    fun _ => in_of_mem_settings, nofun⟩

end Finding

/-! ## Columns of lines -/

/-- The characters of the code that number `column` to `endColumn - 1`. -/
def Line.columns (l : Line) (column endColumn : Nat) : Text := (l.code.drop (column - 1)).take (endColumn - column)

theorem Line.columns_append {l : Line} {before part after : Text} (h : l.code = before ++ (part ++ after)) :
    l.columns (before.length + 1) (before.length + 1 + part.length) = part := by
  rw [columns, Nat.add_sub_cancel, Nat.add_sub_cancel_left, h, List.drop_left, List.take_left]

theorem getElem?_scanLines {s : ScanState} {number : Nat} {raws : List Text} {l : Line}
    (h : l ∈ scanLines s number raws) : (scanLines s number raws)[l.number - number]? = some l := by
  induction raws generalizing s number with
  | nil => cases h
  | cons raw rest ih =>
      rw [scanLines_cons] at h ⊢
      rcases List.mem_cons.mp h with rfl | h
      · simp
      · have hbounds := number_of_mem_scanLines h
        have hindex : l.number - number = l.number - (number + 1) + 1 := by omega
        rw [hindex, List.getElem?_cons_succ, ih h]

/-- On a statement of one line, a column is the column of the statement and the characters in front. -/
theorem Statement.columnAt_append {s : Statement} {before after : Text} (hfeed : '\n' ∉ s.text)
    (h : s.text = before ++ after) : s.columnAt before.bytes = s.column + before.length := by
  rw [columnAt, Text.firstLine_of_not_mem hfeed, h, Text.takeBytes_bytes_append]

/-! ## Exact positions -/

/-- The diagnostic stands at columns of a line of the text, and these hold the content. -/
structure Diagnostic.Holds (d : Diagnostic) (text content : Text) : Prop where
  column_lt : d.column < d.endColumn
  one_le_column : 1 ≤ d.column
  exists_line : ∃ l raw, (Source.ofText text).lines[d.line - 1]? = some l ∧ l.number = d.line ∧
    text.lines[d.line - 1]? = some raw ∧ Blanked l.code (dropReturn raw) ∧ d.endColumn ≤ l.code.length + 1 ∧
      l.columns d.column d.endColumn = content

theorem Finding.In.holds {text : Text} {f : Finding} (h : f.In text) (hfeed : '\n' ∉ f.statement.text) :
    f.diagnostic.Holds text f.content := by
  obtain ⟨l, hl, hplace⟩ := Statement.exists_on h.statement_mem
  obtain ⟨hnumber, raw, hraw, hblanked⟩ := exists_raw_of_mem_scan hl
  obtain ⟨front, back, hfront, hplaced⟩ := hplace.exists_code
  obtain ⟨before, part, after, hcut, hstart, hstop, hcontent⟩ := h.span.exists_cut
  have hfirst := Text.firstLine_of_not_mem hfeed
  have hon : f.diagnostic.On l := by
    refine f.problem.markIn_on hnumber hplace h.span ?_
    rw [hfirst]
    exact Nat.lt_of_lt_of_le h.span.lt h.span.stop_boundary.le
  have hcolumn : f.statement.column = front.length + 1 := hplaced
  -- Both ends are counted from the start of the line: over the code in front of the statement, then inside it.
  have hcode : l.code = (front ++ before) ++ (part ++ (after ++ back)) := by
    rw [hfront, Statement.place, hfirst, hcut]
    simp only [List.append_assoc]
  have hbefore : f.statement.columnAt f.start = (front ++ before).length + 1 := by
    rw [hstart, Statement.columnAt_append hfeed hcut, hcolumn, List.length_append]
    omega
  have hbehind : f.statement.columnAt f.stop = (front ++ before).length + 1 + part.length := by
    rw [hstop, Statement.columnAt_append hfeed (hcut.trans (List.append_assoc ..).symm), hcolumn,
      List.length_append, List.length_append]
    omega
  have hpart : 0 < part.length := by
    refine List.length_pos_iff.mpr fun hnil => Nat.lt_irrefl f.start ?_
    have hlt := h.span.lt
    rwa [hstop, hnil, List.append_nil, ← hstart] at hlt
  have hfrom : f.diagnostic.column = (front ++ before).length + 1 := by
    change max 1 (f.statement.columnAt f.start) = _
    rw [hbefore, Nat.max_eq_right (Nat.le_add_left 1 _)]
  have hto : f.diagnostic.endColumn = (front ++ before).length + 1 + part.length := by
    change max (f.statement.columnAt f.stop) (f.diagnostic.column + 1) = _
    rw [hfrom, hbehind, Nat.max_eq_left (Nat.add_le_add_left hpart _)]
  refine ⟨hon.column_lt, hon.one_le_column, l, raw, ?_, hon.line_eq.symm, ?_, hblanked, hon.endColumn_le, ?_⟩
  · rw [hon.line_eq]
    exact getElem?_scanLines hl
  · rw [hon.line_eq, hraw]
  · rw [hfrom, hto, Line.columns_append hcode, Finding.content, hcontent]

/-- Every check of statements reports what it finds; on a statement of one line, the columns of the diagnostic hold
the characters that the problem is found in. -/
theorem findings_hold (text : Text) :
    ∀ c ∈ statementChecks,
      (c.2 (Source.ofText text).outline).map Finding.diagnostic = c.1 (Source.ofText text) ∧
        ∀ f ∈ c.2 (Source.ofText text).outline, f.In text ∧
          ('\n' ∉ f.statement.text → f.diagnostic.Holds text f.content) := by
  intro c hc
  refine ⟨Finding.diagnostic_statementChecks _ c hc, fun f hf => ?_⟩
  have hin := Finding.in_of_mem_statementChecks text c hc f hf
  exact ⟨hin, hin.holds⟩

/-- A misspelled type behind a comment and a name, both with characters of several bytes. -/
def typoBehindComment : Text := "Table A \x7b /* größe */ \"naïve\" strng \x7d".toList

def typoFinding : Finding :=
  ⟨.unknownType "strng".toList (some "string"), ⟨1, "\"naïve\" strng".toList, 23, 36, .table 0, none⟩, 9, 14⟩

theorem findings_hold_typoBehindComment :
    typoFinding ∈ Finding.types (Source.ofText typoBehindComment).outline ∧ '\n' ∉ typoFinding.statement.text ∧
      typoFinding.diagnostic.column = 31 ∧ typoFinding.diagnostic.Holds typoBehindComment "strng".toList := by
  have hfinding : typoFinding ∈ Finding.types (Source.ofText typoBehindComment).outline := by decide +kernel
  have hfeed : '\n' ∉ typoFinding.statement.text := by decide
  have hcheck : (checkTypes, Finding.types) ∈ statementChecks := by simp [statementChecks]
  have hholds := ((findings_hold typoBehindComment _ hcheck).2 _ hfinding).2 hfeed
  exact ⟨hfinding, hfeed, by decide, hholds⟩

end SchemaDiagram
