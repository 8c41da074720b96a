import SchemaDiagram.Proofs.Access.Check
import SchemaDiagram.Proofs.Check.Join
import SchemaDiagram.Proofs.Source.Continuation

/-! # Places of diagnostics

A diagnostic marks characters of a line of the text. There is one exception, since a statement is marked on its
first line only: a warning about a type or a setting that stands on a later line of the statement marks the
column behind the end of the first one.
-/
namespace SchemaDiagram

/-! ## Columns of a statement -/

theorem Text.IsBoundary.length_takeBytes_lt {t : Text} {m n : Nat} (hm : t.IsBoundary m) (hn : t.IsBoundary n)
    (h : m < n) : (t.takeBytes m).length < (t.takeBytes n).length := by
  obtain ⟨a, b, rfl, rfl⟩ := hm
  obtain ⟨c, d, hcut, rfl⟩ := hn
  rw [takeBytes_bytes_append, hcut, takeBytes_bytes_append]
  rcases List.append_eq_append_iff.mp hcut with ⟨part, rfl, rfl⟩ | ⟨part, rfl, rfl⟩
  · have hpart : part ≠ [] := by
      rintro rfl
      simp at h
    rw [List.length_append]
    exact Nat.lt_add_of_pos_right (List.length_pos_iff.mpr hpart)
  · rw [bytes_append] at h
    omega

namespace Text

theorem firstLine_append (t : Text) : t.firstLine ++ t.dropWhile (· ≠ '\n') = t :=
  List.takeWhile_append_dropWhile

theorem HasSpan.length_takeBytes_lt {t : Text} {start stop : Nat} (h : t.HasSpan start stop)
    (hstart : start < t.firstLine.bytes) :
    (t.firstLine.takeBytes start).length < (t.firstLine.takeBytes stop).length := by
  have hboundary : ∀ {n}, t.IsBoundary n → t.firstLine.IsBoundary (min n t.firstLine.bytes) := by
    intro n hn
    rw [← t.firstLine_append] at hn
    exact hn.min_bytes
  rw [← takeBytes_min_bytes _ start, ← takeBytes_min_bytes _ stop]
  refine (hboundary h.start_boundary).length_takeBytes_lt (hboundary h.stop_boundary) ?_
  have hlt := h.lt
  omega

/-- What starts behind the first line of a text makes it a text of several lines. -/
theorem HasSpan.feed_mem {t : Text} {start stop : Nat} (h : t.HasSpan start stop)
    (hstart : t.firstLine.bytes ≤ start) : '\n' ∈ t := by
  by_contra hfeed
  have hle := h.stop_boundary.le
  have hlt := h.lt
  rw [firstLine_of_not_mem hfeed] at hstart
  omega

end Text

namespace Statement

variable {s : Statement} {l : Line}

theorem one_le_column (h : s.place.On l) : 1 ≤ s.column := by
  obtain ⟨before, after, -, hcolumn⟩ := h.exists_code
  exact (show s.column = before.length + 1 from hcolumn) ▸ Nat.le_add_left 1 _

theorem exists_firstLine (h : s.place.On l) :
    ∃ c rest, s.text.firstLine = c :: rest ∧ Text.isBlank c = false := by
  obtain ⟨c, hhead, hblank⟩ := h.exists_head
  obtain ⟨rest, hrest⟩ := List.head?_eq_some_iff.mp hhead
  exact ⟨c, rest, hrest, hblank⟩

theorem column_lt_endColumn (h : s.place.On l) : s.column < s.endColumn := by
  have hend : s.endColumn = s.column + s.text.firstLine.length := h.endColumn_eq
  obtain ⟨c, rest, hfirst, -⟩ := exists_firstLine h
  rw [hend, hfirst, List.length_cons]
  omega

theorem columnAt_le (h : s.place.On l) (offset : Nat) : s.columnAt offset ≤ s.endColumn := by
  have hcut := congrArg List.length (Text.takeBytes_append_dropBytes offset s.text.firstLine)
  have hend : s.endColumn = s.column + s.text.firstLine.length := h.endColumn_eq
  rw [List.length_append] at hcut
  rw [columnAt, hend]
  omega

theorem columnAt_eq_endColumn (h : s.place.On l) {offset : Nat} (hoffset : s.text.firstLine.bytes ≤ offset) :
    s.columnAt offset = s.endColumn := by
  have hend : s.endColumn = s.column + s.text.firstLine.length := h.endColumn_eq
  have hall := Text.takeBytes_bytes_append s.text.firstLine []
  rw [List.append_nil] at hall
  rw [columnAt, ← Text.takeBytes_min_bytes, Nat.min_eq_right hoffset, hall, hend]

theorem bytes_firstLine_pos (h : s.place.On l) : 0 < s.text.firstLine.bytes := by
  obtain ⟨c, rest, hfirst, -⟩ := exists_firstLine h
  have hpos := c.utf8Size_pos
  rw [hfirst, Text.bytes_cons]
  omega

theorem exists_head (h : s.place.On l) : ∃ c, s.text.head? = some c ∧ Text.isBlank c = false := by
  obtain ⟨c, rest, hfirst, hblank⟩ := exists_firstLine h
  refine ⟨c, ?_, hblank⟩
  rw [← s.text.firstLine_append, hfirst]
  rfl

end Statement

/-! ## Marks -/

/-- The diagnostic marks characters of the code of the line, one at least. -/
structure Diagnostic.On (d : Diagnostic) (l : Line) : Prop where
  line_eq : d.line = l.number
  one_le_column : 1 ≤ d.column
  column_lt : d.column < d.endColumn
  endColumn_le : d.endColumn ≤ l.code.length + 1

theorem Problem.mark_on (p : Problem) {l : Line} (hl : 1 ≤ l.number) {column endColumn : Nat} (hcolumn : 1 ≤ column)
    (hlt : column < endColumn) (hle : endColumn ≤ l.code.length + 1) : (p.mark l.number column endColumn).On l := by
  constructor <;> simp only [Problem.mark, Diagnostic.mark] <;> omega

variable {s : Statement} {l : Line} {start stop : Nat}

/-- What starts on the first line of a statement is marked there. -/
theorem Problem.markIn_on (p : Problem) (hl : 1 ≤ l.number) (h : s.place.On l) (hspan : s.text.HasSpan start stop)
    (hstart : start < s.text.firstLine.bytes) : (p.markIn s start stop).On l := by
  have hline : s.line = l.number := h.line_eq
  rw [markIn, hline]
  apply p.mark_on hl
  · exact Nat.le_trans (Statement.one_le_column h) (Nat.le_add_right _ _)
  · exact Nat.add_lt_add_left (hspan.length_takeBytes_lt hstart) _
  · exact Nat.le_trans (s.columnAt_le h stop) h.endColumn_le

/-- The diagnostic marks the column behind the first line of the statement. -/
structure Diagnostic.Behind (d : Diagnostic) (s : Statement) : Prop where
  line_eq : d.line = s.line
  column_eq : d.column = s.endColumn
  endColumn_eq : d.endColumn = s.endColumn + 1

theorem Problem.markIn_behind (p : Problem) (hl : 1 ≤ l.number) (h : s.place.On l) (hlt : start < stop)
    (hstart : s.text.firstLine.bytes ≤ start) : (p.markIn s start stop).Behind s := by
  have hline : s.line = l.number := h.line_eq
  have hend : s.endColumn = s.column + s.text.firstLine.length := h.endColumn_eq
  have hcolumn := Statement.one_le_column h
  have hfirst := Statement.columnAt_eq_endColumn h hstart
  have hlast := Statement.columnAt_eq_endColumn h (Nat.le_trans hstart (Nat.le_of_lt hlt))
  constructor <;> simp only [Problem.markIn, Problem.mark, Diagnostic.mark, hfirst, hlast] <;> omega

/-! ## The last line of code -/

theorem mem_of_lastCodeLine? {source : Source} {l : Line} (h : HasCode source.lines)
    (hlast : source.lastCodeLine? = some l) : l ∈ source.lines ∧ l.code.trim ≠ [] := by
  rw [Source.lastCodeLine?] at hlast
  cases hfind : source.lines.reverse.find? fun l => !l.code.trim.isEmpty with
  | none =>
      obtain ⟨l', hl', hcode⟩ := h
      exact absurd (List.find?_eq_none.mp hfind l' (List.mem_reverse.mpr hl')) (by simp [hcode])
  | some found =>
      rw [hfind] at hlast
      obtain rfl := Option.some.inj hlast
      exact ⟨List.mem_reverse.mp (List.mem_of_find?_eq_some hfind), by simpa using List.find?_some hfind⟩

theorem Line.endColumn_bounds {l : Line} (h : l.code.trim ≠ []) : 1 < l.endColumn ∧ l.endColumn ≤ l.code.length + 1 := by
  obtain ⟨front, back, hcode, -⟩ := Text.exists_trim_eq l.code
  have hlength := congrArg List.length hcode
  have hpos := List.length_pos_iff.mpr h
  have hcut := congrArg List.length (Text.takeBytes_append_dropBytes l.code.trimEnd.bytes l.code)
  rw [List.length_append] at hcut
  rw [List.length_append, List.length_append] at hlength
  simp only [endColumn, column]
  omega

/-! ## Headers of tables -/

theorem isQuote_of_isWordChar {c : Char} (h : isWordChar c = true) : isQuote c = false := by
  have hc := not_mem_markChars_of_isWordChar h
  by_contra hq
  simp only [isQuote, Bool.not_eq_false, Bool.or_eq_true, beq_iff_eq] at hq
  rcases hq with (rfl | rfl) | rfl <;> exact hc (by decide)

theorem mem_statements_of_mem_tableHeaders {o : Outline} {header : TableHeader} (h : (s, header) ∈ tableHeaders o) :
    s ∈ o.statements := by
  obtain ⟨b, -, hb⟩ := List.mem_filterMap.mp h
  obtain ⟨s', hs, hb⟩ := Option.bind_eq_some_iff.mp hb
  obtain ⟨header', -, hb⟩ := Option.bind_eq_some_iff.mp hb
  cases hb
  obtain ⟨i, -, hi⟩ := Option.bind_eq_some_iff.mp hs
  exact List.mem_of_getElem? hi

theorem TableHeader.exists_tokens {source : Text} {header : TableHeader} (h : read? source = some header) :
    ∃ x rest w, tokens source = x :: rest ∧ x.token = .word w ∧ header.keywordStart = x.start ∧
      header.keywordStop = x.stop ∧ ∀ name, header.name = some name → ∃ y more, rest = y :: more ∧ name.start = y.start := by
  rw [read?] at h
  split at h
  · next x rest htokens =>
      split at h
      · next hword =>
          cases h
          obtain ⟨w, hw⟩ := Lexeme.token_of_isWord hword
          refine ⟨x, rest, w, htokens, hw, rfl, rfl, fun name hname => ?_⟩
          obtain ⟨after, hread⟩ := Access.exists_of_readName hname
          cases rest with
          | nil => cases hread
          | cons y more =>
              obtain ⟨part, -, heq⟩ := Option.map_eq_some_iff.mp hread
              obtain ⟨rfl, -⟩ := Prod.mk.inj heq
              exact ⟨y, more, rfl, rfl⟩
      · cases h
  · cases h

/-- The name of a table stands on the first line of its header: a word and blanks open no string that could run
over the end of the line. -/
theorem TableHeader.name_on_firstLine {text : Text} (hs : s ∈ (Source.ofText text).outline.statements)
    {header : TableHeader} (hheader : read? s.text = some header) {name : Name} (hname : header.name = some name) :
    name.start < s.text.firstLine.bytes := by
  obtain ⟨l, -, hplace⟩ := Statement.exists_on hs
  obtain ⟨x, rest, w, htokens, hw, -, -, hnext⟩ := exists_tokens hheader
  obtain ⟨y, more, rfl, hstart⟩ := hnext name hname
  obtain ⟨blanks, behind, ht, hword, hblanks, hy⟩ :=
    (htokens ▸ spans_tokens s.text).exists_blanks_of_word hw (Statement.exists_head hplace)
  by_contra hlate
  rw [Nat.not_lt, hstart, hy, Nat.zero_add] at hlate
  have hspan := (Access.spans_of_tableHeader hheader).2 name hname
  have htriple := Statement.isTriple_firstLine hs (hspan.feed_mem (by rw [hstart, hy, Nat.zero_add]; exact hlate))
  have hfront : s.text.firstLine <+: w ++ blanks :=
    Text.prefix_of_bytes_le ⟨_, s.text.firstLine_append⟩ ⟨behind, by rw [ht, List.append_assoc]⟩ hlate
  have hplain : ∀ c ∈ s.text.firstLine, isQuote c = false := by
    intro c hc
    rcases List.mem_append.mp (hfront.subset hc) with hc | hc
    · exact isQuote_of_isWordChar (hword c hc)
    · exact isQuote_of_isBlank (hblanks c hc)
  rw [StringState.run_outside hplain] at htriple
  exact htriple

/-! ## Checks of one place -/

variable {text : Text} {d : Diagnostic}

/-- The diagnostic marks code of a line of the text. -/
def Diagnostic.InCode (d : Diagnostic) (text : Text) : Prop := ∃ l ∈ scan text, d.On l

theorem Problem.markIn_inCode (p : Problem) (hs : s ∈ (Source.ofText text).outline.statements)
    (hspan : s.text.HasSpan start stop) (hstart : start < s.text.firstLine.bytes) :
    (p.markIn s start stop).InCode text := by
  obtain ⟨l, hl, hplace⟩ := Statement.exists_on hs
  exact ⟨l, hl, p.markIn_on (exists_raw_of_mem_scan hl).1 hplace hspan hstart⟩

theorem Problem.markAll_inCode (p : Problem) (hs : s ∈ (Source.ofText text).outline.statements) :
    (p.markAll s).InCode text := by
  obtain ⟨l, -, hplace⟩ := Statement.exists_on hs
  have hpos := Statement.bytes_firstLine_pos hplace
  have hle : s.text.firstLine.bytes ≤ s.text.bytes := by
    have hbytes := congrArg Text.bytes s.text.firstLine_append
    rw [Text.bytes_append] at hbytes
    omega
  exact p.markIn_inCode hs ⟨s.text.isBoundary_zero, s.text.isBoundary_bytes, by omega⟩ hpos

/-- What starts a statement stands on its first line. -/
theorem Problem.markIn_first_inCode (p : Problem) (hs : s ∈ (Source.ofText text).outline.statements) {x : Lexeme}
    {rest : List Lexeme} (hx : tokens s.text = x :: rest) : (p.markIn s x.start x.stop).InCode text := by
  obtain ⟨l, -, hplace⟩ := Statement.exists_on hs
  have hstart : x.start = 0 := (hx ▸ spans_tokens s.text).start_eq (Statement.exists_head hplace)
  have hmem : x ∈ tokens s.text := hx ▸ List.mem_cons_self
  exact p.markIn_inCode hs (Text.hasSpan_of_mem hmem) (hstart ▸ Statement.bytes_firstLine_pos hplace)

theorem inCode_of_mem_checkBraces (h : d ∈ checkBraces (Source.ofText text)) : d.InCode text := by
  simp only [checkBraces, List.mem_append, List.mem_map] at h
  rcases h with ⟨c, hc, rfl⟩ | h
  · obtain ⟨l, hl, hline, before, after, hcode, hcolumn⟩ := StrayClose.exists_on hc
    have hend : before.length + 1 + 1 ≤ l.code.length + 1 := by
      rw [hcode, List.length_append, List.length_cons]
      omega
    rw [hline, hcolumn]
    exact ⟨l, hl, Problem.mark_on _ (exists_raw_of_mem_scan hl).1 (Nat.le_add_left 1 _) (Nat.lt_succ_self _) hend⟩
  · split at h
    · next n l hunclosed hlast =>
        obtain rfl := List.mem_singleton.mp h
        have hopen : (Source.ofText text).outline.unclosed ≠ 0 := hunclosed ▸ Nat.succ_ne_zero n
        have hsome : HasCode (Source.ofText text).lines := hasCode_of_depth hopen
        obtain ⟨hl, hcode⟩ := mem_of_lastCodeLine? hsome hlast
        have hend := Line.endColumn_bounds hcode
        exact ⟨l, hl, Problem.mark_on _ (exists_raw_of_mem_scan hl).1 (Nat.le_refl 1) hend.1 hend.2⟩
    · cases h

theorem inCode_of_mem_checkTableNames (h : d ∈ checkTableNames (Source.ofText text)) : d.InCode text := by
  obtain ⟨⟨s, header⟩, hmem, hd⟩ := List.mem_filterMap.mp h
  obtain ⟨x, rest, -, htokens, -, hstart, hstop, -⟩ :=
    TableHeader.exists_tokens (Access.read?_of_mem_tableHeaders hmem)
  obtain ⟨-, hd⟩ := Option.ite_none_right_eq_some.mp hd
  obtain rfl := Option.some.inj hd
  rw [hstart, hstop]
  exact Problem.markIn_first_inCode _ (mem_statements_of_mem_tableHeaders hmem) htokens

theorem inCode_of_mem_checkDuplicates (h : d ∈ checkDuplicates (Source.ofText text)) : d.InCode text := by
  obtain ⟨name, -, hd⟩ := List.mem_flatMap.mp h
  have hsite : ∀ site ∈ declarationsOf (Source.ofText text).outline name, ∀ p : Problem,
      (p.markIn site.1 site.2.start site.2.stop).InCode text := by
    intro site hmem p
    have hdeclared := List.mem_of_mem_filter hmem
    obtain ⟨⟨s, header⟩, hheader, hname⟩ := List.mem_filterMap.mp hdeclared
    obtain ⟨n, hn, rfl⟩ := Option.map_eq_some_iff.mp hname
    have hs := mem_statements_of_mem_tableHeaders hheader
    exact p.markIn_inCode hs (Access.span_of_declaration hdeclared)
      (TableHeader.name_on_firstLine hs (Access.read?_of_mem_tableHeaders hheader) hn)
  split at hd
  · next first second more heq =>
      rw [heq] at hsite
      rcases List.mem_cons.mp hd with rfl | hd
      · exact hsite first List.mem_cons_self _
      · obtain ⟨site, hmem, rfl⟩ := List.mem_map.mp hd
        exact hsite site hmem _
  · cases hd

theorem mem_statements_of_mem_tableStatements {o : Outline} (h : s ∈ tableStatements o) : s ∈ o.statements :=
  List.mem_of_mem_filter h

theorem inCode_of_mem_checkFieldSyntax (h : d ∈ checkFieldSyntax (Source.ofText text)) : d.InCode text := by
  obtain ⟨s, hs, hd⟩ := List.mem_filterMap.mp h
  obtain ⟨-, hd⟩ := Option.ite_none_left_eq_some.mp hd
  obtain rfl := Option.some.inj hd
  exact Problem.markAll_inCode _ (mem_statements_of_mem_tableStatements hs)

theorem inCode_of_mem_checkReferences (h : d ∈ checkReferences (Source.ofText text)) : d.InCode text := by
  obtain ⟨s, hs, hd⟩ := List.mem_filterMap.mp h
  obtain ⟨p, -, rfl⟩ := Option.map_eq_some_iff.mp hd
  exact p.markAll_inCode hs

theorem inCode_of_mem_checkKeywords (h : d ∈ checkKeywords (Source.ofText text)) : d.InCode text := by
  obtain ⟨s, hs, hd⟩ := List.mem_filterMap.mp h
  split at hd
  · next word start stop hfirst =>
      obtain ⟨rest, hrest⟩ := List.head?_eq_some_iff.mp hfirst
      obtain ⟨fix, -, rfl⟩ := Option.map_eq_some_iff.mp hd
      exact Problem.markIn_first_inCode _ (List.mem_of_mem_filter hs) hrest
  · cases hd

/-! ## Checks of types and settings -/

/-- Diagnostics for what stands on a later line of the statement. -/
inductive LateWarning (s : Statement) : Diagnostic → Prop
  | type {field fix} (hread : FieldHead.read? s.text = some field) (hlate : s.text.firstLine.bytes ≤ field.typeStart) :
      LateWarning s ((Problem.unknownType field.dataType fix).markIn s field.typeStart field.typeStop)
  | setting {field setting p} (hread : FieldHead.read? s.text = some field) (hmem : setting ∈ field.settings)
      (hproblem : settingProblem? setting = some p) (hlate : s.text.firstLine.bytes ≤ setting.start) :
      LateWarning s (p.markIn s setting.start setting.stop)

/-- The diagnostic is a warning about a later line of a statement in a table, and marks the column behind the
first line. -/
def Diagnostic.IsLate (d : Diagnostic) (text : Text) : Prop :=
  ∃ s ∈ tableStatements (Source.ofText text).outline, '\n' ∈ s.text ∧ LateWarning s d ∧ d.Behind s

theorem Problem.markIn_placed {p : Problem} (hs : s ∈ tableStatements (Source.ofText text).outline)
    (hspan : s.text.HasSpan start stop)
    (hlate : s.text.firstLine.bytes ≤ start → LateWarning s (p.markIn s start stop)) :
    (p.markIn s start stop).InCode text ∨ (p.markIn s start stop).IsLate text := by
  have hmem := mem_statements_of_mem_tableStatements hs
  rcases Nat.lt_or_ge start s.text.firstLine.bytes with hstart | hstart
  · exact .inl (p.markIn_inCode hmem hspan hstart)
  · obtain ⟨l, hl, hplace⟩ := Statement.exists_on hmem
    have hbehind := p.markIn_behind (exists_raw_of_mem_scan hl).1 hplace hspan.lt hstart
    exact .inr ⟨s, hs, hspan.feed_mem hstart, hlate hstart, hbehind⟩

theorem placed_of_mem_checkTypes (h : d ∈ checkTypes (Source.ofText text)) : d.InCode text ∨ d.IsLate text := by
  obtain ⟨s, hs, hd⟩ := List.mem_filterMap.mp h
  obtain ⟨field, hread, hd⟩ := Option.bind_eq_some_iff.mp hd
  obtain ⟨-, hd⟩ := Option.ite_none_left_eq_some.mp hd
  obtain rfl := Option.some.inj hd
  exact Problem.markIn_placed hs (Access.spans_of_field hread).1 (.type hread)

theorem placed_of_mem_checkSettings (h : d ∈ checkSettings (Source.ofText text)) :
    d.InCode text ∨ d.IsLate text := by
  obtain ⟨s, hs, hd⟩ := List.mem_flatMap.mp h
  split at hd
  · next field hread =>
      split at hd
      · cases hd
      · obtain ⟨setting, hmem, hd⟩ := List.mem_filterMap.mp hd
        obtain ⟨p, hproblem, rfl⟩ := Option.map_eq_some_iff.mp hd
        exact Problem.markIn_placed hs ((Access.spans_of_field hread).2 setting hmem) (.setting hread hmem hproblem)
  · cases hd

theorem placed_of_mem_diagnostics (hd : d ∈ (validate text).diagnostics) : d.InCode text ∨ d.IsLate text := by
  obtain ⟨check, hcheck, hmem⟩ := List.mem_flatMap.mp hd
  simp only [checks, List.mem_cons, List.not_mem_nil, or_false] at hcheck
  rcases hcheck with rfl | rfl | rfl | rfl | rfl | rfl | rfl | rfl
  · exact .inl (inCode_of_mem_checkDuplicates hmem)
  · exact .inl (inCode_of_mem_checkBraces hmem)
  · exact .inl (inCode_of_mem_checkTableNames hmem)
  · exact .inl (inCode_of_mem_checkFieldSyntax hmem)
  · exact .inl (inCode_of_mem_checkReferences hmem)
  · exact .inl (inCode_of_mem_checkKeywords hmem)
  · exact placed_of_mem_checkTypes hmem
  · exact placed_of_mem_checkSettings hmem

/-! ## Places of the text -/

/-- Every diagnostic marks characters of a line of the text, one at least; if it warns of a type or a setting on a
later line of a statement, it marks the column behind the end of the first line of the statement instead. -/
theorem diagnostic_place (hd : d ∈ (validate text).diagnostics) :
    ∃ raw, 1 ≤ d.line ∧ text.lines[d.line - 1]? = some raw ∧ dropReturn raw ≠ [] ∧ d.endLine = d.line ∧
      1 ≤ d.column ∧ d.column < d.endColumn ∧
      (d.endColumn ≤ (dropReturn raw).length + 1 ∨
        ∃ s ∈ tableStatements (Source.ofText text).outline, '\n' ∈ s.text ∧ LateWarning s d ∧ d.Behind s ∧
          s.endColumn ≤ (dropReturn raw).length + 1) := by
  rcases placed_of_mem_diagnostics hd with ⟨l, hl, hon⟩ | ⟨s, hs, hfeed, hwarning, hbehind⟩
  · obtain ⟨hnumber, raw, hraw, hcode⟩ := exists_raw_of_mem_scan hl
    have hfirst := hon.one_le_column
    have hlt := hon.column_lt
    have hend : d.endColumn ≤ (dropReturn raw).length + 1 :=
      Nat.le_trans hon.endColumn_le (Nat.succ_le_succ hcode.length_le)
    have hne : dropReturn raw ≠ [] := List.length_pos_iff.mp (by omega)
    exact ⟨raw, hon.line_eq ▸ hnumber, hon.line_eq ▸ hraw, hne, rfl, hfirst, hlt, .inl hend⟩
  · obtain ⟨l, hl, hplace⟩ := Statement.exists_on (mem_statements_of_mem_tableStatements hs)
    obtain ⟨hnumber, raw, hraw, hcode⟩ := exists_raw_of_mem_scan hl
    have hline : d.line = l.number := hbehind.line_eq.trans hplace.line_eq
    have hfirst := Statement.one_le_column hplace
    have hlt := Statement.column_lt_endColumn hplace
    have hend : s.endColumn ≤ (dropReturn raw).length + 1 :=
      Nat.le_trans hplace.endColumn_le (Nat.succ_le_succ hcode.length_le)
    have hne : dropReturn raw ≠ [] := List.length_pos_iff.mp (by omega)
    refine ⟨raw, hline ▸ hnumber, hline ▸ hraw, hne, rfl, ?_, ?_, .inr ⟨s, hs, hfeed, hwarning, hbehind, hend⟩⟩
    · rw [hbehind.column_eq]
      omega
    · rw [hbehind.column_eq, hbehind.endColumn_eq]
      exact Nat.lt_succ_self _

/-- A setting that no field has, behind a note of two lines. -/
def settingBehindNote : Text := "Table A \x7b\n  id int [note: '''multi\n line''', uniq]\n\x7d".toList

def settingBehindNoteWarning : Diagnostic :=
  ⟨.warning, 2, 25, 26, (Problem.unknownConstraint "uniq".toList (some "unique")).message⟩

theorem diagnostic_place_settingBehindNote :
    settingBehindNoteWarning ∈ (validate settingBehindNote).diagnostics ∧
      ∃ raw, settingBehindNote.lines[1]? = some raw ∧ dropReturn raw ≠ [] ∧
        (settingBehindNoteWarning.endColumn ≤ (dropReturn raw).length + 1 ∨
          ∃ s ∈ tableStatements (Source.ofText settingBehindNote).outline, '\n' ∈ s.text ∧
            LateWarning s settingBehindNoteWarning ∧ settingBehindNoteWarning.Behind s ∧
              s.endColumn ≤ (dropReturn raw).length + 1) := by
  have hd : settingBehindNoteWarning ∈ (validate settingBehindNote).diagnostics := by decide +kernel
  obtain ⟨raw, -, hraw, hne, -, -, -, hplace⟩ := diagnostic_place hd
  exact ⟨hd, raw, hraw, hne, hplace⟩

/-- A mark may stand behind the last character of its line. -/
theorem settingBehindNote_marked_behind_line :
    ¬∀ text : Text, ∀ d ∈ (validate text).diagnostics,
      ∃ raw, 1 ≤ d.line ∧ text.lines[d.line - 1]? = some raw ∧ d.endLine = d.line ∧
        (1 ≤ d.column ∧ d.column < d.endColumn ∧ d.endColumn ≤ (dropReturn raw).length + 1 ∨
          d.column = 1 ∧ d.endColumn = 2 ∧ dropReturn raw = []) := by
  intro h
  have hd : settingBehindNoteWarning ∈ (validate settingBehindNote).diagnostics := by decide +kernel
  obtain ⟨raw, -, hraw, -, hplace⟩ := h settingBehindNote _ hd
  have hline : settingBehindNote.lines[1]? = some "  id int [note: '''multi".toList := by decide +kernel
  obtain rfl := Option.some.inj (hline.symm.trans hraw)
  exact absurd hplace (by decide +kernel)

end SchemaDiagram
