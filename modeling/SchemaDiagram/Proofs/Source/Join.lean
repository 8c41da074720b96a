import SchemaDiagram.Proofs.Source.Balance
import SchemaDiagram.Proofs.Source.Position
import SchemaDiagram.Proofs.Source.Quoting

/-! # One outline behind another

When no brace is open, the pass goes on as if it had just begun: what it finds from there on is what it
finds in the lines behind alone, with other line numbers and with statements and blocks counted on from
those in front. Only the last statement in front may still be taken for the header of a block.
-/
namespace SchemaDiagram

theorem getElem?_append_map {α : Type} (as bs : List α) (f : α → α) (i : Nat) :
    (as ++ bs.map f)[as.length + i]? = (bs[i]?).map f := by
  rw [List.getElem?_append_right (Nat.le_add_right _ _), Nat.add_sub_cancel_left, List.getElem?_map]

theorem modify_append_map {α : Type} {f g h : α → α} (hf : ∀ a, g (f a) = f (h a)) (as bs : List α) (i : Nat) :
    (as ++ bs.map f).modify (as.length + i) g = as ++ (bs.modify i h).map f := by
  rw [map_modify g fun a => (hf a).symm]
  induction as with
  | nil => rw [List.length_nil, Nat.zero_add, List.nil_append, List.nil_append]
  | cons a as ih =>
      rw [List.length_cons, Nat.add_right_comm, List.cons_append, List.modify_succ_cons, ih, List.cons_append]

/-! ## New numbers

Lines count from 1, so only what a renumbering does from there on matters. -/

variable {g : Nat → Nat}

def Line.renumber (g : Nat → Nat) (l : Line) : Line := { l with number := g (max 1 l.number) }

def StrayClose.renumber (g : Nat → Nat) (c : StrayClose) : StrayClose := { c with line := g (max 1 c.line) }

/-- The context when `offset` more blocks stand in front. -/
def Context.shift (offset : Nat) : Context → Context
  | table block => table (offset + block)
  | enum block => enum (offset + block)
  | ref block => ref (offset + block)
  | topLevel => topLevel
  | nested => nested
  | other => other

/-- The statement on another line, with `offset` more blocks in front. -/
def Statement.moved (g : Nat → Nat) (offset : Nat) (s : Statement) : Statement :=
  { s with
    line := g (max 1 s.line)
    context := s.context.shift offset
    opens := s.opens.map (offset + ·) }

/-- The block on another line, with `offset` more statements in front. -/
def Block.moved (g : Nat → Nat) (offset : Nat) (b : Block) : Block :=
  { b with
    line := g (max 1 b.line)
    header := b.header.map (offset + ·)
    body := b.body.map (offset + ·) }

theorem Context.body?_shift (offset : Nat) (c : Context) : (c.shift offset).body? = c.body?.map (offset + ·) := by
  cases c <;> rfl

theorem scanLines_renumber {number : Nat} (h : 1 ≤ number) (offset : Nat) (s : ScanState) (raws : List Text) :
    (scanLines s number raws).map (Line.renumber (· + offset)) = scanLines s (number + offset) raws := by
  induction raws generalizing s number with
  | nil => rfl
  | cons raw rest ih =>
      rw [scanLines_cons, scanLines_cons, List.map_cons, ih (Nat.le_add_left 1 number), Nat.add_right_comm,
        Line.renumber, Nat.max_eq_right h]

/-- The lines of a text in two parts, of which the second starts in no string and no comment. -/
theorem scan_eq_append {t : Text} {before after : List Text} (hlines : t.lines = before ++ after)
    (hcode : ScanState.code.behind before = .code) :
    scan t = scanLines .code 1 before ++ scanLines .code (1 + before.length) after := by
  rw [scan, hlines, scanLines_append, hcode]

/-! ## Joining -/

namespace Outline

variable {o p : Outline}

/-- What the pass knows when it has found `o`, with no brace open at its end, and then `p` in lines that
`g` gives their numbers. -/
def join (o : Outline) (g : Nat → Nat) (p : Outline) : Outline where
  statements := o.statements ++ p.statements.map (Statement.moved g o.blocks.length)
  blocks := o.blocks ++ p.blocks.map (Block.moved g o.statements.length)
  strayCloses := o.strayCloses ++ p.strayCloses.map (StrayClose.renumber g)
  stack := p.stack.map (o.blocks.length + ·)
  cutShort := p.cutShort.map (o.blocks.length + ·)
  depth := p.depth
  pending := p.pending.map (o.statements.length + ·)
  continuing := p.continuing

theorem length_statements_join (o p : Outline) (g : Nat → Nat) :
    (o.join g p).statements.length = o.statements.length + p.statements.length := by
  rw [join, List.length_append, List.length_map]

theorem length_blocks_join (o p : Outline) (g : Nat → Nat) :
    (o.join g p).blocks.length = o.blocks.length + p.blocks.length := by
  rw [join, List.length_append, List.length_map]

theorem context_join (o p : Outline) (g : Nat → Nat) : (o.join g p).context = p.context.shift o.blocks.length := by
  rw [context, context, join]
  cases p.stack with
  | nil => rfl
  | cons top rest =>
      simp only [List.map_cons, getElem?_append_map]
      cases p.blocks[top]? with
      | none => rfl
      | some b =>
          simp only [Option.map_some, Block.moved]
          cases b.kind <;> rfl

theorem announced_join (o p : Outline) (g : Nat → Nat) : (o.join g p).announced = p.announced := by
  rw [announced, announced, join]
  cases p.pending with
  | none => rfl
  | some header =>
      simp only [Option.map_some, Option.bind_some, getElem?_append_map, Option.map_map]
      rfl

theorem appendToLast_join (hp : p.statements ≠ []) (o : Outline) (g : Nat → Nat) (content : Text) :
    (o.join g p).appendToLast content = o.join g (p.appendToLast content) := by
  have hlast : (o.join g p).statements.length - 1 = o.statements.length + (p.statements.length - 1) := by
    have hpos := List.length_pos_iff.mpr hp
    rw [length_statements_join]
    omega
  rw [appendToLast, hlast, appendToLast, join, join]
  simp only [Outline.mk.injEq, and_true]
  apply modify_append_map
  exact fun _ => rfl

theorem addStatement_join (o p : Outline) (g : Nat → Nat) (s : Statement) :
    (o.join g p).addStatement (s.moved g o.blocks.length) = o.join g (p.addStatement s) := by
  rw [addStatement, addStatement, context_join, Context.body?_shift, length_statements_join]
  simp only [join, Outline.mk.injEq, List.map_append, List.map_cons, List.map_nil, List.append_assoc, Option.map_some,
    and_true, true_and]
  cases p.context.body? with
  | none => rfl
  | some block =>
      apply modify_append_map
      intro b
      simp only [Block.moved, List.map_append, List.map_cons, List.map_nil]

theorem addText_join (o p : Outline) (g : Nat → Nat) (l : Line) (start : Nat) (content : Text) :
    (o.join g p).addText (l.renumber g) start content = o.join g (p.addText l start content) := by
  simp only [addText]
  split
  · rfl
  · let first := start + (content.bytes - content.trimStart.bytes)
    let added := fun line context => (o.join g p).addStatement
      ⟨line, content.trim, l.column first, l.column (first + content.trim.bytes), context, none⟩
    calc
      _ = added (g (max 1 l.number)) (o.join g p).context := rfl
      _ = added (g (max 1 l.number)) (p.context.shift o.blocks.length) := by rw [context_join]
      _ = _ := addStatement_join o p g ⟨l.number, _, _, _, p.context, none⟩

theorem push_join (o p : Outline) (g : Nat → Nat) (kind : BlockKind) (header : Option Nat) (line column : Nat) :
    (o.join g p).push kind (header.map (o.statements.length + ·)) (g (max 1 line)) column =
      o.join g (p.push kind header line column) := by
  simp only [push, length_blocks_join]
  simp only [join, Outline.mk.injEq, List.map_append, List.map_cons, List.map_nil, List.append_assoc, Option.map_none,
    and_true]
  refine ⟨?_, rfl⟩
  cases header with
  | none => rfl
  | some h =>
      apply modify_append_map
      exact fun _ => rfl

theorem cutShortAt_join (o p : Outline) (g : Nat → Nat) (header : Nat) :
    (o.join g p).cutShortAt (o.statements.length + header) = o.join g (p.cutShortAt header) := by
  rw [cutShortAt, cutShortAt]
  simp only [join, Outline.mk.injEq, List.map_append, List.map_nil, and_true]
  constructor
  · apply modify_append_map
    exact fun _ => rfl
  · cases p.stack with
    | nil => rfl
    | cons top rest =>
        apply modify_append_map
        intro b
        have hlast : (b.body.map (o.statements.length + ·)).getLast? = some (o.statements.length + header) ↔
            b.body.getLast? = some header := by
          rw [List.getLast?_map, Option.map_eq_some_iff]
          simp only [Nat.add_left_cancel_iff, exists_eq_right]
        simp only [Block.moved, hlast]
        split
        · simp only [List.map_dropLast]
        · rfl

theorem openBrace_join (o p : Outline) (g : Nat → Nat) (line column : Nat) :
    (o.join g p).openBrace (g (max 1 line)) column = o.join g (p.openBrace line column) := by
  have hpush := fun kind header => push_join o p g kind header line column
  have hcut : ∀ header, ((o.join g p).cutShortAt (o.statements.length + header)).push .table
      (some (o.statements.length + header)) (g (max 1 line)) column =
      o.join g ((p.cutShortAt header).push .table (some header) line column) := by
    intro header
    rw [cutShortAt_join]
    exact push_join o (p.cutShortAt header) g .table (some header) line column
  have hpending : (o.join g p).pending = p.pending.map (o.statements.length + ·) := rfl
  simp only [openBrace, context_join, announced_join, hpending]
  cases p.context with
  | topLevel => exact hpush _ p.pending
  | table | nested =>
      simp only [Context.shift]
      cases p.pending with
      | none => exact hpush .nested none
      | some header =>
          cases p.announced with
          | none => exact hpush .nested (some header)
          | some kind =>
              cases kind with
              | table => exact hcut header
              | _ => exact hpush .nested (some header)
  | enum | ref | other => exact hpush .other p.pending

theorem close_join (o p : Outline) (g : Nat → Nat) (block : Nat) :
    (o.join g p).close (o.blocks.length + block) = o.join g (p.close block) := by
  rw [close, close]
  simp only [join, Outline.mk.injEq, true_and, and_true]
  apply modify_append_map
  exact fun _ => rfl

theorem closeBrace_join (o p : Outline) (g : Nat → Nat) (line column : Nat) :
    (o.join g p).closeBrace (g (max 1 line)) column = o.join g (p.closeBrace line column) := by
  obtain ⟨statements, blocks, strayCloses, stack, cutShort, depth, pending, continuing⟩ := p
  cases depth with
  | zero => simp [closeBrace, join, StrayClose.renumber]
  | succ depth =>
      cases stack with
      | cons top rest => exact close_join o ⟨statements, blocks, strayCloses, rest, cutShort, depth, none, false⟩ g top
      | nil =>
          cases cutShort with
          | cons next rest => exact close_join o ⟨statements, blocks, strayCloses, [], rest, depth, none, false⟩ g next
          | nil => rfl

/-! ## The pass goes on -/

/-- What the pass does behind `o` is what it does without `o`. A line that goes on with a string needs a
statement that the string is in. -/
theorem addEvent_join (hp : p.continuing = true → p.statements ≠ []) (o : Outline) (g : Nat → Nat) (l : Line)
    (e : Event) : addEvent (l.renumber g) (o.join g p) e = o.join g (addEvent l p e) := by
  cases e with
  | openBrace start => exact openBrace_join o p g _ _
  | closeBrace start => exact closeBrace_join o p g _ _
  | text start content =>
      have hcontinuing : (o.join g p).continuing = p.continuing := rfl
      simp only [addEvent, hcontinuing]
      cases hc : p.continuing with
      | false => exact addText_join o p g l start content
      | true =>
          have hne := hp hc
          have hjoin : (o.join g p).statements ≠ [] := by
            rw [← List.length_pos_iff, length_statements_join]
            exact Nat.add_pos_right _ (List.length_pos_iff.mpr hne)
          rw [List.isEmpty_eq_false_iff.mpr hne, List.isEmpty_eq_false_iff.mpr hjoin]
          exact appendToLast_join hne o g content

theorem addEvents_join (hp : p.continuing = true → p.statements ≠ []) (o : Outline) (g : Nat → Nat) (l : Line)
    (events : List Event) :
    events.foldl (addEvent (l.renumber g)) (o.join g p) = o.join g (events.foldl (addEvent l) p) := by
  induction events generalizing p with
  | nil => rfl
  | cons e rest ih =>
      rw [List.foldl_cons, List.foldl_cons, addEvent_join hp]
      apply ih
      rw [continuing_addEvent]
      nofun

theorem addLine_join {l : Line} (hp : l.continuesString = true → p.statements ≠ []) (o : Outline) (g : Nat → Nat) :
    (o.join g p).addLine (l.renumber g) = o.join g (p.addLine l) :=
  addEvents_join (p := { p with continuing := l.continuesString }) hp o g l l.events

theorem addLines_join {s : ScanState} (hs : s.StartsLine) (hp : p.Quoted s.lineStart) (o : Outline) (g : Nat → Nat)
    (number : Nat) (raws : List Text) :
    ((scanLines s number raws).map (Line.renumber g)).foldl addLine (o.join g p) =
      o.join g ((scanLines s number raws).foldl addLine p) := by
  induction raws generalizing s p number with
  | nil => rfl
  | cons raw rest ih =>
      have hne : decide (s = .tripleQuoted) = true → p.statements ≠ [] := by
        intro htriple
        obtain rfl := of_decide_eq_true htriple
        exact hp.statements_ne_nil trivial
      rw [scanLines_cons, List.map_cons, List.foldl_cons, List.foldl_cons, addLine_join hne]
      exact ih (ScanState.startsLine_endLine _) (hp.addLine hs number (dropReturn raw)) (number + 1)

theorem ofLines_join (o : Outline) (g : Nat → Nat) (number : Nat) (raws : List Text) :
    ((scanLines .code number raws).map (Line.renumber g)).foldl addLine (o.join g empty) =
      o.join g (ofLines (scanLines .code number raws)) :=
  addLines_join (s := .code) rfl quoted_empty o g number raws

/-- Other line numbers change the lines that the outline gives and nothing else. -/
theorem ofLines_renumber (g : Nat → Nat) (number : Nat) (raws : List Text) :
    ofLines ((scanLines .code number raws).map (Line.renumber g)) =
      empty.join g (ofLines (scanLines .code number raws)) :=
  ofLines_join empty g number raws

end Outline

/-! ## The first brace or text -/

/-- Text without anything but blanks, which the pass leaves out. -/
def Event.isBlank : Event → Bool
  | text _ content => content.trim.isEmpty
  | openBrace _ | closeBrace _ => false

/-- What comes first on the lines, blanks apart, is an opening brace. -/
def startsWithBrace (lines : List Line) : Bool :=
  match (lines.flatMap Line.events).find? (!·.isBlank) with
  | some (.openBrace _) => true
  | some (.closeBrace _) | some (.text _ _) | none => false

theorem startsWithBrace_renumber (g : Nat → Nat) (lines : List Line) :
    startsWithBrace (lines.map (Line.renumber g)) = startsWithBrace lines := by
  rw [startsWithBrace, List.flatMap_map]
  rfl

/-- A string that a line leaves open has its apostrophes on the line. -/
theorem Scans.quote_mem {s e : ScanState} {t : Text} {gs : List Glyph} (h : Scans s t gs e) (he : e = .tripleQuoted)
    (hs : s ≠ .tripleQuoted) : .plain '\'' ∈ gs := by
  induction h with
  | done => exact absurd he hs
  | lineComment => cases he
  | openTriple => exact List.mem_cons_self
  | closeTriple | triple => exact absurd rfl hs
  | openComment _ ih | closeComment _ ih | escape _ ih =>
      exact List.mem_cons_of_mem _ (List.mem_cons_of_mem _ (ih he nofun))
  | comment _ _ ih | closeQuote _ _ ih | openBrace _ ih | closeBrace _ ih =>
      exact List.mem_cons_of_mem _ (ih he nofun)
  | openQuote _ _ _ ih | quoted _ _ _ ih | plain _ _ _ _ ih => exact List.mem_cons_of_mem _ (ih he nofun)

theorem Line.isBlanks_code {l : Line} (h : l.events.all Event.isBlank = true) : Text.IsBlanks l.code := by
  intro c hc
  rw [← l.flatMap_content_events, List.mem_flatMap] at hc
  obtain ⟨e, he, hc⟩ := hc
  have hblank := List.all_eq_true.mp h e he
  cases e with
  | text start content => exact Text.isBlanks_of_trim_eq_nil (List.isEmpty_iff.mp hblank) c hc
  | openBrace | closeBrace => cases hblank

/-- A line without braces and text opens no string. -/
theorem scanChars_ne_tripleQuoted {s : ScanState} (hs : s ≠ .tripleQuoted) {raw : Text}
    (h : (Event.ofGlyphs 0 (scanChars s raw).1).all Event.isBlank = true) :
    (scanChars s raw).2.endLine ≠ .tripleQuoted := by
  intro he
  have htriple : (scanChars s raw).2 = .tripleQuoted := by
    cases hend : (scanChars s raw).2 <;> simp_all [ScanState.endLine]
  have hquote := List.mem_map_of_mem (f := Glyph.char) ((scans_scanChars s raw).quote_mem htriple hs)
  exact absurd (Line.isBlanks_code (l := ⟨0, false, (scanChars s raw).1⟩) h _ hquote) (by decide)

namespace Outline

variable {o o' : Outline}

/-- Without what only the next step asks for. -/
def settled (o : Outline) : Outline := { o with pending := none, continuing := false }

theorem addEvents_of_isBlank (l : Line) {events : List Event} (h : events.all Event.isBlank = true)
    (hc : o.continuing = false) : events.foldl (addEvent l) o = o := by
  induction events with
  | nil => rfl
  | cons e rest ih =>
      rw [List.all_cons, Bool.and_eq_true] at h
      cases e with
      | openBrace | closeBrace => cases h.1
      | text start content =>
          have hadd : addEvent l o (.text start content) = o := by
            rcases addText_cases o l start content with ⟨-, hadd⟩ | ⟨hne, -⟩
            · simp only [addEvent, hc, Bool.false_and, Bool.false_eq_true, ↓reduceIte, hadd]
              rw [← hc]
            · exact absurd (List.isEmpty_iff.mp h.1) hne
          rw [List.foldl_cons, hadd]
          exact ih h.2

/-- What was the last statement does not matter once there is another one, or a closing brace. -/
theorem addEvents_pending (l : Line) {events : List Event} {e : Event} (he : events.find? (!·.isBlank) = some e)
    (hopen : ∀ start, e ≠ .openBrace start) (pending : Option Nat) (hc : o.continuing = false) :
    events.foldl (addEvent l) { o with pending } = events.foldl (addEvent l) o := by
  induction events with
  | nil => cases he
  | cons first rest ih =>
      rw [List.foldl_cons, List.foldl_cons]
      cases hblank : first.isBlank with
      | true =>
          have hadd : ∀ o : Outline, o.continuing = false → addEvent l o first = o :=
            fun o hc => addEvents_of_isBlank l (show [first].all Event.isBlank = true by simp [hblank]) hc
          rw [hadd { o with pending } hc, hadd o hc]
          rw [List.find?_cons, hblank] at he
          exact ih he
      | false =>
          rw [List.find?_cons, hblank] at he
          obtain rfl := Option.some.inj he
          congr 1
          cases first with
          | openBrace start => exact absurd rfl (hopen start)
          | closeBrace start => rfl
          | text start content =>
              have hne : content.trim.isEmpty = false := hblank
              simp only [addEvent, hc, addText, hne]
              rfl

/-- Lines that do not start with an opening brace have the same outline behind outlines that differ in
what is pending. -/
theorem settled_addLines {s : ScanState} (h : o.settled = o'.settled) (hs : s ≠ .tripleQuoted) (number : Nat)
    {raws : List Text} (hfirst : startsWithBrace (scanLines s number raws) = false) :
    ((scanLines s number raws).foldl addLine o).settled = ((scanLines s number raws).foldl addLine o').settled := by
  induction raws generalizing o o' s number with
  | nil => exact h
  | cons raw rest ih =>
      rw [scanLines_cons, decide_eq_false hs] at hfirst ⊢
      let l : Line := ⟨number, false, (scanChars s (dropReturn raw)).1⟩
      obtain ⟨base, hbase⟩ : ∃ base, base = o.settled := ⟨_, rfl⟩
      have hcontinuing : base.continuing = false := hbase ▸ rfl
      -- at the start of the line the outlines differ in what is pending only
      have hline : ∀ o₁ : Outline, base = o₁.settled →
          o₁.addLine l = l.events.foldl (addEvent l) { base with pending := o₁.pending } := by
        rintro o₁ rfl
        rfl
      rw [List.foldl_cons, List.foldl_cons, hline o hbase, hline o' (hbase.trans h)]
      rw [startsWithBrace, List.flatMap_cons, List.find?_append] at hfirst
      cases hfind : l.events.find? (!·.isBlank) with
      | none =>
          have hblank : l.events.all Event.isBlank = true := by simpa using hfind
          have hsame := fun pending => addEvents_of_isBlank (o := { base with pending }) l hblank hcontinuing
          rw [hsame o.pending, hsame o'.pending]
          apply ih
          · rfl
          · exact scanChars_ne_tripleQuoted hs hblank
          · rw [hfind, Option.none_or] at hfirst
            exact hfirst
      | some e =>
          have hopen : ∀ start, e ≠ .openBrace start := by
            rintro start rfl
            rw [hfind] at hfirst
            cases hfirst
          have hpending := fun pending => addEvents_pending l hfind hopen pending hcontinuing
          rw [hpending o.pending, hpending o'.pending]

/-- Without an open brace nothing of the pass so far matters for what is behind it. -/
theorem settled_eq_join (hb : o.ledger.Balanced) (hdepth : o.depth = 0) (g : Nat → Nat) :
    o.settled = o.join g empty := by
  have hlength : o.depth = (o.stack ++ o.cutShort).length := hb.depth_eq
  have hnil : o.stack ++ o.cutShort = [] := List.length_eq_zero_iff.mp (hlength.symm.trans hdepth)
  obtain ⟨hstack, hcut⟩ := List.append_eq_nil_iff.mp hnil
  simp [settled, join, empty, hstack, hcut, hdepth]

/-- The outline of lines behind others that leave no brace open. -/
theorem settled_addLines_join (hb : o.ledger.Balanced) (hdepth : o.depth = 0) (offset : Nat) {raws : List Text}
    (hfirst : startsWithBrace (scanLines .code 1 raws) = false) :
    ((scanLines .code (1 + offset) raws).foldl addLine o).settled =
      (o.join (· + offset) (ofLines (scanLines .code 1 raws))).settled := by
  have hscan := scanLines_renumber (Nat.le_refl 1) offset .code raws
  have hsettled : o.settled = (o.join (· + offset) empty).settled := settled_eq_join hb hdepth _
  rw [← startsWithBrace_renumber (· + offset), hscan] at hfirst
  rw [settled_addLines (s := .code) hsettled nofun _ hfirst, ← hscan, ofLines_join]

theorem balanced_ofLines (lines : List Line) : (ofLines lines).ledger.Balanced := by
  rw [ofLines_eq_after]
  exact balanced_after _

end Outline

/-! ## Sources -/

namespace Source

def ofLines (lines : List Line) : Source := ⟨lines, Outline.ofLines lines⟩

def settled (s : Source) : Source := ⟨s.lines, s.outline.settled⟩

/-- The lines of `r` behind those of `s`. -/
def join (s : Source) (g : Nat → Nat) (r : Source) : Source :=
  ⟨s.lines ++ r.lines.map (Line.renumber g), s.outline.join g r.outline⟩

theorem settled_ofLines_append {front : List Line} (hdepth : (Outline.ofLines front).depth = 0) (offset : Nat)
    {raws : List Text} (hfirst : startsWithBrace (scanLines .code 1 raws) = false) :
    (ofLines (front ++ scanLines .code (1 + offset) raws)).settled =
      ((ofLines front).join (· + offset) (ofLines (scanLines .code 1 raws))).settled := by
  have houtline := Outline.settled_addLines_join (Outline.balanced_ofLines front) hdepth offset hfirst
  simp only [settled, ofLines, join, Source.mk.injEq]
  refine ⟨?_, ?_⟩
  · rw [scanLines_renumber (Nat.le_refl 1)]
  · rw [Outline.ofLines, List.foldl_append]
    exact houtline

end Source
end SchemaDiagram
