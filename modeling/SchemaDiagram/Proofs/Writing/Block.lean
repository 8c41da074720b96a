import SchemaDiagram.Proofs.Schema.Growth
import SchemaDiagram.Proofs.Writing.Reading

/-! # Written blocks

How the outline takes in the lines that are written for a block or for a statement of its own, and how
it stands behind them.
-/
namespace SchemaDiagram

open Segment

/-! ## Events of a line -/

/-- Characters that are no brace make one run of text. -/
theorem Event.ofGlyphs_plain (start : Nat) (c : Char) (t : Text) (rest : List Glyph)
    (h : ∀ g ∈ rest.head?, ∀ d, g ≠ .plain d) :
    Event.ofGlyphs start ((c :: t).map .plain ++ rest) =
      .text start (c :: t) :: Event.ofGlyphs (start + Text.bytes (c :: t)) rest := by
  induction t generalizing start c with
  | nil =>
      cases rest with
      | nil => rfl
      | cons g rest =>
          cases g with
          | plain d => exact absurd rfl (h (.plain d) rfl d)
          | openBrace => rfl
          | closeBrace => rfl
  | cons d t ih =>
      rw [List.map_cons, List.cons_append, Event.ofGlyphs, ih (start + c.utf8Size) d, Text.bytes_cons c, Nat.add_assoc]

/-! ## Lines of a text -/

theorem dropReturn_concat {c : Char} (h : c ≠ '\r') (t : Text) : dropReturn (t ++ [c]) = t ++ [c] := by
  rw [dropReturn, List.getLast?_concat]
  split
  · next heq => exact absurd (Option.some.inj heq) h
  · rfl

theorem dropReturn_line {ps : List Segment} (h : IsStatement ps) : dropReturn (line ps) = line ps := by
  obtain ⟨init, p, rfl, hp⟩ := h.last
  obtain ⟨t, c, ht, hc⟩ := isBlank_last_text (h.readable.wellFormed p (by simp)) hp
  have hline : line (init ++ [p]) = line init ++ t ++ [c] := by simp [ht]
  rw [hline]
  refine dropReturn_concat ?_ _
  rintro rfl
  exact absurd hc (by decide)

theorem lines_flatMap {ls : List Text} (h : ∀ l ∈ ls, l.OneLine) :
    Text.lines (ls.flatMap (· ++ ['\n'])) = ls ++ [[]] := by
  have hcons : ∀ (l : Text) (rest : Text), l.OneLine → Text.lines (l ++ '\n' :: rest) = l :: Text.lines rest := by
    intro l rest hl
    induction l with
    | nil => rfl
    | cons c l ih =>
        rw [Text.OneLine, List.mem_cons, not_or] at hl
        rw [List.cons_append, Text.lines, if_neg (Ne.symm hl.1), ih hl.2]
  induction ls with
  | nil => rfl
  | cons l ls ih =>
      rw [List.flatMap_cons, List.append_assoc, List.singleton_append, hcons l _ (h l List.mem_cons_self),
        ih fun l' hl' => h l' (List.mem_cons_of_mem l hl')]
      rfl

theorem oneLine_opening {t : Text} (h : t.OneLine) : Text.OneLine (t ++ [' ', '\x7b']) := by
  rw [Text.OneLine, List.mem_append, not_or]
  exact ⟨h, by decide⟩

theorem oneLine_blockLines {ps : List Segment} (hps : IsStatement ps) {lines : List (List Segment)}
    (hl : ∀ qs ∈ lines, IsStatement qs) : ∀ l ∈ blockLines ps lines, l.OneLine := by
  intro l hmem
  simp only [blockLines, List.mem_append, List.mem_cons, List.mem_map, List.not_mem_nil, or_false] at hmem
  rcases hmem with (rfl | ⟨qs, hqs, rfl⟩) | rfl
  · exact oneLine_opening hps.oneLine_line
  · exact (hl qs hqs).oneLine_line
  · decide

namespace Outline

/-- The outline after lines that are numbered from `number`. -/
def read (o : Outline) (number : Nat) (ls : List Text) : Outline := (scanLines .code number ls).foldl addLine o

/-- One line of code, behind which the next one starts outside of strings and comments. -/
theorem read_code {l : Text} {glyphs : List Glyph} {e : ScanState} (hscan : scanChars .code (dropReturn l) = (glyphs, e))
    (he : e.endLine = .code) (o : Outline) (number : Nat) (rest : List Text) :
    o.read number (l :: rest) = (o.addLine ⟨number, false, glyphs⟩).read (number + 1) rest := by
  simp only [read, scanLines, hscan, he, List.foldl_cons, reduceCtorEq, decide_false]

theorem read_statement {ps : List Segment} (h : IsStatement ps) (o : Outline) (number : Nat) (rest : List Text) :
    o.read number (line ps :: rest) =
      (o.addLine ⟨number, false, (line ps).map .plain⟩).read (number + 1) rest := by
  have hscan := scanChars_line h.readable.wellFormed []
  rw [List.append_nil] at hscan
  refine read_code (e := .code) ?_ rfl o number rest
  rw [dropReturn_line h, hscan, scanChars, List.append_nil]

theorem read_opening {ps : List Segment} (h : IsStatement ps) (o : Outline) (number : Nat) (rest : List Text) :
    o.read number ((line ps ++ [' ', '\x7b']) :: rest) =
      (o.addLine ⟨number, false, (line ps ++ [' ']).map .plain ++ [.openBrace]⟩).read (number + 1) rest := by
  have hreturn : dropReturn (line ps ++ [' ', '\x7b']) = line ps ++ [' ', '\x7b'] := by
    have hconcat := dropReturn_concat (c := '\x7b') (by decide) (line ps ++ [' '])
    simpa using hconcat
  refine read_code (e := .code) ?_ rfl o number rest
  rw [hreturn, scanChars_line h.readable.wellFormed]
  simp [show scanChars .code [' ', '\x7b'] = ([.plain ' ', .openBrace], .code) by decide]

theorem read_closing (o : Outline) (number : Nat) (rest : List Text) :
    o.read number (['\x7d'] :: rest) = (o.addLine ⟨number, false, [.closeBrace]⟩).read (number + 1) rest := by
  rfl

/-! ## What one line does -/

theorem events_plain {code : Text} (h : code ≠ []) (number : Nat) :
    Line.events ⟨number, false, code.map .plain⟩ = [.text 0 code] := by
  obtain ⟨c, t, rfl⟩ := List.exists_cons_of_ne_nil h
  have hevents := Event.ofGlyphs_plain 0 c t [] (by simp)
  rwa [List.append_nil] at hevents

theorem events_opening {code : Text} (h : code ≠ []) (number : Nat) :
    ∃ start, Line.events ⟨number, false, code.map .plain ++ [.openBrace]⟩ = [.text 0 code, .openBrace start] := by
  obtain ⟨c, t, rfl⟩ := List.exists_cons_of_ne_nil h
  exact ⟨_, Event.ofGlyphs_plain 0 c t [.openBrace] (by simp)⟩

/-- A run of text with something in it adds one statement where the outline stands. -/
theorem addText_eq (o : Outline) (l : Line) (start : Nat) (content : Text) (h : Text.trim content ≠ []) :
    ∃ s : Statement, s.text = Text.trim content ∧ s.context = o.context ∧ s.opens = none ∧
      o.addText l start content = { o with
        statements := o.statements ++ [s]
        blocks := match o.context.body? with
          | some block => o.blocks.modify block fun b => { b with body := b.body ++ [o.statements.length] }
          | none => o.blocks
        pending := some o.statements.length
        continuing := false } := by
  have hne : ¬ (Text.trim content).isEmpty = true := by simpa using h
  let first := start + (Text.bytes content - (Text.trimStart content).bytes)
  refine ⟨⟨l.number, Text.trim content, l.column first, l.column (first + (Text.trim content).bytes), o.context, none⟩,
    rfl, rfl, rfl, ?_⟩
  exact if_neg hne

theorem line_ne_nil {ps : List Segment} (h : IsStatement ps) : line ps ≠ [] := by
  obtain ⟨p, rest, rfl, hp⟩ := h.first
  obtain ⟨c, t, ht⟩ := exists_text_eq_cons (h.readable.wellFormed p List.mem_cons_self)
  simp [ht]

/-- A line without braces adds one statement, unless it is blank. -/
theorem addLine_plain {code : Text} (h : Text.trim code ≠ []) (o : Outline) (number : Nat) :
    ∃ s : Statement, s.text = Text.trim code ∧ s.context = o.context ∧ s.opens = none ∧
      o.addLine ⟨number, false, code.map .plain⟩ = { o with
        statements := o.statements ++ [s]
        blocks := match o.context.body? with
          | some block => o.blocks.modify block fun b => { b with body := b.body ++ [o.statements.length] }
          | none => o.blocks
        pending := some o.statements.length
        continuing := false } := by
  obtain ⟨s, htext, hcontext, hopens, hadd⟩ := addText_eq { o with continuing := false }
    ⟨number, false, code.map .plain⟩ 0 code h
  refine ⟨s, htext, hcontext, hopens, ?_⟩
  have hcode : code ≠ [] := by
    rintro rfl
    exact h rfl
  rw [addLine, events_plain hcode]
  exact hadd

theorem trim_line_ne_nil {ps : List Segment} (h : IsStatement ps) : Text.trim (line ps) ≠ [] := by
  rw [trim_line h.readable.wellFormed h.toHasEnds]
  exact line_ne_nil h

theorem addLine_statement {ps : List Segment} (h : IsStatement ps) (o : Outline) (number : Nat) :
    ∃ s : Statement, s.text = line ps ∧ s.context = o.context ∧ s.opens = none ∧
      o.addLine ⟨number, false, (line ps).map .plain⟩ = { o with
        statements := o.statements ++ [s]
        blocks := match o.context.body? with
          | some block => o.blocks.modify block fun b => { b with body := b.body ++ [o.statements.length] }
          | none => o.blocks
        pending := some o.statements.length
        continuing := false } := by
  obtain ⟨s, htext, hs⟩ := addLine_plain (trim_line_ne_nil h) o number
  exact ⟨s, htext.trans (trim_line h.readable.wellFormed h.toHasEnds), hs⟩

theorem openBrace_of_nil {o : Outline} (h : o.stack = []) (line column : Nat) :
    o.openBrace line column = o.push (o.announced.getD .other) o.pending line column := by
  rw [openBrace, context_of_nil h]

/-- A line that ends with its one brace opens the block that its text announces. -/
theorem addLine_opening {code : Text} (h : Text.trim code ≠ []) {o : Outline} (hs : o.stack = []) (number : Nat) :
    ∃ (s : Statement) (b : Block), s.text = Text.trim code ∧ s.context = .topLevel ∧ s.opens = some o.blocks.length ∧
      b.kind = BlockKind.ofHeader (Text.trim code) ∧ b.header = some o.statements.length ∧
      o.addLine ⟨number, false, code.map .plain ++ [.openBrace]⟩ = { o with
        statements := o.statements ++ [s]
        blocks := o.blocks ++ [b]
        stack := [o.blocks.length]
        depth := o.depth + 1
        pending := none
        continuing := false } := by
  have hcode : code ≠ [] := by
    rintro rfl
    exact h rfl
  obtain ⟨start, hevents⟩ := events_opening hcode number
  obtain ⟨l, hl⟩ : ∃ l : Line, l = ⟨number, false, code.map .plain ++ [.openBrace]⟩ := ⟨_, rfl⟩
  have hcontinues : l.continuesString = false := by rw [hl]
  rw [← hl] at hevents ⊢
  obtain ⟨s, htext, hcontext, -, hadd⟩ := addText_eq { o with continuing := false } l 0 code h
  have htop : context { o with continuing := false } = .topLevel := context_of_nil hs
  simp only [htop, Context.body?] at hadd
  refine ⟨{ s with opens := some o.blocks.length }, ⟨BlockKind.ofHeader (Text.trim code), some o.statements.length,
    l.number, l.column start, false, []⟩, htext, hcontext.trans htop, rfl, rfl, rfl, ?_⟩
  have hline : o.addLine l = openBrace { o with
      statements := o.statements ++ [s]
      pending := some o.statements.length
      continuing := false } l.number (l.column start) := by
    rw [addLine, hevents, hcontinues]
    exact congrArg (openBrace · l.number (l.column start)) hadd
  have hmodify : (o.statements ++ [s]).modify o.statements.length (fun s => { s with opens := some o.blocks.length }) =
      o.statements ++ [{ s with opens := some o.blocks.length }] := modify_concat _ _ _
  rw [hline, openBrace_of_nil (by exact hs)]
  simp only [announced, push, hmodify, hs, Option.bind_some, List.getElem?_concat_length,
    Option.map_some, Option.getD_some, htext]

/-! ## Whole blocks -/

/-- `o` is what `o₀` becomes inside a block that it meets, behind a header and some statements. -/
structure Inside (o₀ o : Outline) (kind : BlockKind) (header : Statement) (body : List Statement) : Prop where
  consistent : o.Consistent
  statements_eq : o.statements = o₀.statements ++ header :: body
  blocks_eq : ∃ b, o.blocks = o₀.blocks ++ [b] ∧ b.kind = kind ∧ b.header = some o₀.statements.length
  stack_eq : o.stack = [o₀.blocks.length]
  depth_ne : o.depth ≠ 0

namespace Inside

variable {o₀ o : Outline} {kind : BlockKind} {header : Statement} {body : List Statement}

theorem context_eq (h : Inside o₀ o kind header body) : o.context = kind.context o₀.blocks.length := by
  obtain ⟨b, hb, rfl, -⟩ := h.blocks_eq
  refine context_of_cons h.stack_eq ?_
  rw [kinds, hb]
  simp

theorem addLine_plain (h : Inside o₀ o kind header body) {code : Text} (hcode : Text.trim code ≠ []) (number : Nat) :
    ∃ s : Statement, s.text = Text.trim code ∧ s.context = kind.context o₀.blocks.length ∧ s.opens = none ∧
      Inside o₀ (o.addLine ⟨number, false, code.map .plain⟩) kind header (body ++ [s]) := by
  obtain ⟨s, htext, hcontext, hopens, hadd⟩ := Outline.addLine_plain hcode o number
  refine ⟨s, htext, hcontext.trans h.context_eq, hopens, h.consistent.addLine _, ?_, ?_, ?_, ?_⟩
  · rw [hadd]
    simp [h.statements_eq]
  · obtain ⟨b, hb, hkind, hheader⟩ := h.blocks_eq
    rw [hadd, h.context_eq]
    cases hbody : (kind.context o₀.blocks.length).body? with
    | none => exact ⟨b, hb, hkind, hheader⟩
    | some i =>
        obtain rfl := BlockKind.eq_of_body?_context hbody
        refine ⟨{ b with body := b.body ++ [o.statements.length] }, ?_, hkind, hheader⟩
        simp only [hb, modify_concat]
  · rw [hadd]
    exact h.stack_eq
  · rw [hadd]
    exact h.depth_ne

theorem read_body (h : Inside o₀ o kind header body) {lines : List (List Segment)} (hl : ∀ ps ∈ lines, IsStatement ps)
    (number : Nat) (rest : List Text) : ∃ o' added, Inside o₀ o' kind header (body ++ added) ∧
      o.read number (lines.map line ++ rest) = o'.read (number + lines.length) rest ∧
      added.map Statement.text = lines.map line ∧
      ∀ s ∈ added, s.context = kind.context o₀.blocks.length ∧ s.opens = none := by
  induction lines generalizing o body number with
  | nil => exact ⟨o, [], by simpa using h, rfl, rfl, by simp⟩
  | cons ps lines ih =>
      have hps := hl ps List.mem_cons_self
      obtain ⟨s, htext, hcontext, hopens, hs⟩ := h.addLine_plain (trim_line_ne_nil hps) number
      rw [trim_line hps.readable.wellFormed hps.toHasEnds] at htext
      obtain ⟨o', added, hadded, hread, htexts, hall⟩ :=
        ih hs (fun qs hq => hl qs (List.mem_cons_of_mem ps hq)) (number + 1)
      refine ⟨o', s :: added, by simpa using hadded, ?_, by simp [htext, htexts], ?_⟩
      · rw [List.map_cons, List.cons_append, read_statement hps, hread, List.length_cons,
          Nat.add_assoc, Nat.add_comm 1]
      · intro t ht
        rcases List.mem_cons.mp ht with rfl | ht
        · exact ⟨hcontext, hopens⟩
        · exact hall t ht

theorem addLine_closing (h : Inside o₀ o kind header body) (number : Nat) :
    ∃ o', o.addLine ⟨number, false, [.closeBrace]⟩ = o' ∧ o'.Consistent ∧ o'.stack = [] ∧
      o'.statements = o₀.statements ++ header :: body ∧
      ∃ b, o'.blocks = o₀.blocks ++ [b] ∧ b.kind = kind ∧ b.header = some o₀.statements.length := by
  obtain ⟨b, hb, hkind, hheader⟩ := h.blocks_eq
  have hclose : o.addLine ⟨number, false, [.closeBrace]⟩ = close { o with
      depth := o.depth - 1, stack := [], pending := none, continuing := false } o₀.blocks.length := by
    simp only [addLine, Line.events, Event.ofGlyphs, List.foldl_cons, List.foldl_nil, addEvent, closeBrace, h.depth_ne,
      ↓reduceIte, h.stack_eq]
  refine ⟨_, rfl, h.consistent.addLine _, ?_, ?_, ?_⟩
  · rw [hclose]
    rfl
  · rw [hclose]
    exact h.statements_eq
  · refine ⟨{ b with closed := true }, ?_, hkind, hheader⟩
    rw [hclose]
    simp only [close, hb, modify_concat]

end Inside

/-- `o'` is `o` with a block behind it that has a header and some lines. -/
structure AddsBlock (o o' : Outline) (header : Statement) (body : List Statement) (b : Block) : Prop where
  consistent : o'.Consistent
  stack_eq : o'.stack = []
  statements_eq : o'.statements = o.statements ++ header :: body
  blocks_eq : o'.blocks = o.blocks ++ [b]
  context_header : header.context = .topLevel
  opens_header : header.opens = some o.blocks.length
  header_eq : b.header = some o.statements.length
  context_body : ∀ s ∈ body, s.context = b.kind.context o.blocks.length
  opens_body : ∀ s ∈ body, s.opens = none

namespace AddsBlock

variable {o o' : Outline} {header : Statement} {body : List Statement} {b : Block}

theorem toExtends (h : AddsBlock o o' header body b) : o.Extends o' (header :: body) [b] := by
  refine ⟨h.statements_eq, h.blocks_eq, fun s hs i hi => ?_⟩
  rcases List.mem_cons.mp hs with rfl | hs
  · rw [h.context_header] at hi
    cases hi
  · rw [h.context_body s hs] at hi
    exact (BlockKind.eq_of_body?_context hi).ge

theorem header?_eq (h : AddsBlock o o' header body b) : o'.header? b = some header := by
  rw [Outline.header?, h.header_eq, h.statements_eq]
  simp

theorem body_eq (h : AddsBlock o o' header body b) (hc : o.Consistent)
    (hk : (b.kind.context o.blocks.length).body? = some o.blocks.length) : o'.body b = body := by
  have hb : o'.blocks[o.blocks.length]? = some b := by
    rw [h.blocks_eq]
    simp
  have hold : o.statements.filter (·.context.body? = some o.blocks.length) = [] := by
    rw [List.filter_eq_nil_iff]
    intro s hs hsi
    obtain ⟨kind, hkind, -⟩ := hc.context_eq s.context (List.mem_map_of_mem hs) _ (by simpa using hsi)
    have hlt := (List.getElem?_eq_some_iff.mp hkind).1
    simp [kinds] at hlt
  have hall : body.filter (·.context.body? = some o.blocks.length) = body := by
    rw [List.filter_eq_self]
    intro s hs
    simp [h.context_body s hs, hk]
  rw [h.consistent.body_eq_filter hb, h.statements_eq, List.filter_append, hold, List.nil_append, List.filter_cons,
    hall]
  simp [h.context_header, Context.body?]

/-- A header opens a block, so it declares no relationship, and no more do lines that are no references. -/
theorem standaloneRelationships_eq (h : AddsBlock o o' header body b) (hc : o.Consistent) (hk : b.kind ≠ .ref)
    (hb : ∀ s ∈ body, RefStatement.read? s.text = none) :
    o'.standaloneRelationships = o.standaloneRelationships := by
  have hnone : (header :: body).filterMap o'.relationship? = [] := by
    rw [List.filterMap_eq_nil_iff]
    intro s hs
    rcases List.mem_cons.mp hs with rfl | hs
    · simp [relationship?, h.opens_header]
    · have hcontext := h.context_body s hs
      cases hkind : b.kind with
      | ref => exact absurd hkind hk
      | _ => simp [relationship?, hcontext, hkind, BlockKind.context, hb s hs]
  rw [h.toExtends.standaloneRelationships_eq hc, hnone, List.append_nil]

end AddsBlock

theorem inside_code_opening {o : Outline} (hc : o.Consistent) (hs : o.stack = []) {code : Text}
    (h : Text.trim code ≠ []) (number : Nat) : ∃ header : Statement, header.text = Text.trim code ∧
      header.context = .topLevel ∧ header.opens = some o.blocks.length ∧
      Inside o (o.addLine ⟨number, false, code.map .plain ++ [.openBrace]⟩)
        (BlockKind.ofHeader (Text.trim code)) header [] := by
  obtain ⟨header, b, htext, hcontext, hopens, hkind, hb, hopen⟩ := addLine_opening h hs number
  refine ⟨header, htext, hcontext, hopens, hc.addLine _, ?_, ⟨b, ?_, hkind, hb⟩, ?_, ?_⟩ <;> rw [hopen]
  exact Nat.succ_ne_zero _

theorem inside_opening {o : Outline} (hc : o.Consistent) (hs : o.stack = []) {ps : List Segment}
    (hps : IsStatement ps) (number : Nat) : ∃ header : Statement, header.text = line ps ∧ header.context = .topLevel ∧
      header.opens = some o.blocks.length ∧
      Inside o (o.addLine ⟨number, false, (line ps ++ [' ']).map .plain ++ [.openBrace]⟩)
        (BlockKind.ofHeader (line ps)) header [] := by
  have htrim := trim_line_space hps.readable.wellFormed hps.toHasEnds
  have h := inside_code_opening hc hs (by rw [htrim]; exact line_ne_nil hps) number
  rwa [htrim] at h

theorem Inside.addsBlock {o₀ o : Outline} {kind : BlockKind} {header : Statement} {body : List Statement}
    (h : Inside o₀ o kind header body) (hcontext : header.context = .topLevel)
    (hopens : header.opens = some o₀.blocks.length)
    (hbody : ∀ s ∈ body, s.context = kind.context o₀.blocks.length ∧ s.opens = none) (number : Nat) :
    ∃ b, AddsBlock o₀ (o.addLine ⟨number, false, [.closeBrace]⟩) header body b ∧ b.kind = kind := by
  obtain ⟨o', rfl, hc', hs', hstatements, b, hblocks, rfl, hbheader⟩ := h.addLine_closing number
  exact ⟨b, ⟨hc', hs', hstatements, hblocks, hcontext, hopens, hbheader, fun s hs => (hbody s hs).1,
    fun s hs => (hbody s hs).2⟩, rfl⟩

/-- Behind a written block the outline has its header, its lines and the block itself. -/
theorem read_block {o : Outline} (hc : o.Consistent) (hs : o.stack = []) {ps : List Segment} (hps : IsStatement ps)
    {lines : List (List Segment)} (hl : ∀ qs ∈ lines, IsStatement qs) (number : Nat) (rest : List Text) :
    ∃ (o' : Outline) (header : Statement) (body : List Statement) (b : Block),
      o.read number (blockLines ps lines ++ rest) = o'.read (number + (blockLines ps lines).length) rest ∧
      AddsBlock o o' header body b ∧ header.text = line ps ∧ b.kind = BlockKind.ofHeader (line ps) ∧
      body.map Statement.text = lines.map line := by
  obtain ⟨header, htext, hcontext, hopens, hinside⟩ := inside_opening hc hs hps number
  obtain ⟨o₂, body, hbody, hread, htexts, hall⟩ := hinside.read_body hl (number + 1) (['\x7d'] :: rest)
  rw [List.nil_append] at hbody
  obtain ⟨b, hadds, hkind⟩ := hbody.addsBlock hcontext hopens hall (number + 1 + lines.length)
  refine ⟨_, header, body, b, ?_, hadds, htext, hkind, htexts⟩
  have hlines : blockLines ps lines ++ rest =
      (line ps ++ [' ', '\x7b']) :: (lines.map line ++ ['\x7d'] :: rest) := by simp [blockLines]
  have hlength : number + (blockLines ps lines).length = number + 1 + lines.length + 1 := by
    simp [blockLines]
    omega
  rw [hlines, hlength, read_opening hps, hread, read_closing]

end Outline
end SchemaDiagram
