import SchemaDiagram.Proofs.Access.Grammar
import SchemaDiagram.Proofs.Access.Line
import SchemaDiagram.Proofs.Source.Balance

/-! # Checked pass over a text

The pass goes from statements to blocks and back by their indices. An outline that is consistent and whose
ledger is balanced has the statements and blocks that the pass asks for.
-/
namespace SchemaDiagram
namespace Access

variable {o : Outline} {l : Line}

/-! ## Text between braces -/

def contextOf (o : Outline) : Access Context :=
  match o.stack with
  | [] => return .topLevel
  | top :: _ => do return (← index o.blocks top).kind.context top

theorem contextOf_eq (h : o.Consistent) : contextOf o = .ok o.context := by
  rw [contextOf]
  rcases h.context_cases with ⟨hs, hc⟩ | ⟨top, rest, kind, hs, hk, hc⟩
  · rw [hs, hc]
    rfl
  · rw [Outline.kinds, List.getElem?_map, Option.map_eq_some_iff] at hk
    obtain ⟨b, hb, rfl⟩ := hk
    rw [hs, hc]
    simp only [index_eq hb, ok_bind, pure_eq_ok]

theorem lt_of_body?_context (h : o.Consistent) {block : Nat} (hb : o.context.body? = some block) :
    block < o.blocks.length := by
  rcases h.context_cases with ⟨-, hc⟩ | ⟨top, rest, kind, hs, -, hc⟩
  · rw [hc] at hb
    cases hb
  · obtain rfl := BlockKind.eq_of_body?_context (hc ▸ hb)
    exact h.stack_lt block (by simp [hs])

def addTextOf (o : Outline) (l : Line) (start : Nat) (content : Text) : Access Outline :=
  if content.trim.isEmpty then return { o with continuing := false }
  else do
    let first := start + (← difference content.bytes content.trimStart.bytes)
    let context ← contextOf o
    let blocks ← match context.body? with
      | some block => modify o.blocks block fun b => { b with body := b.body ++ [o.statements.length] }
      | none => pure o.blocks
    let column ← columnOf l first
    let endColumn ← columnOf l (first + content.trim.bytes)
    return { o with
      statements := o.statements ++ [⟨l.number, content.trim, column, endColumn, context, none⟩]
      blocks
      pending := some o.statements.length
      continuing := false }

theorem addTextOf_eq (h : o.Consistent) {before content after : Text} (hcode : l.code = before ++ (content ++ after)) :
    addTextOf o l before.bytes content = .ok (o.addText l before.bytes content) := by
  rw [addTextOf, Outline.addText]
  split
  · rfl
  · obtain ⟨front, back, hcontent, hbytes⟩ := Text.exists_trim_eq content
    generalize content.trim = text at hcontent
    have hblank : difference content.bytes content.trimStart.bytes = .ok (Text.bytes front) := by
      rw [difference_eq (by omega), ← hbytes, Nat.add_sub_cancel]
    have hfirst : l.code.IsBoundary (before.bytes + front.bytes) :=
      ⟨before ++ front, text ++ (back ++ after), by simp [hcode, hcontent], Text.bytes_append _ _⟩
    have hlast : l.code.IsBoundary (before.bytes + front.bytes + text.bytes) :=
      ⟨before ++ (front ++ text), back ++ after, by simp [hcode, hcontent], by simp [Nat.add_assoc]⟩
    have hstart : content.bytes - content.trimStart.bytes = front.bytes := by omega
    simp only [hblank, ok_bind, contextOf_eq h, columnOf_eq hfirst, columnOf_eq hlast, hstart, pure_eq_ok]
    cases hc : o.context.body? with
    | none => rfl
    | some block => simp only [modify_eq (lt_of_body?_context h hc), ok_bind]

/-! ## Opening braces -/

def announcedOf (o : Outline) : Access (Option BlockKind) :=
  match o.pending with
  | some h => do
    let s ← index o.statements h
    return some (← lookUpFirst s.text (BlockKind.ofHeader s.text))
  | none => return none

theorem announcedOf_eq (h : o.Consistent) : announcedOf o = .ok o.announced := by
  rw [announcedOf, Outline.announced]
  cases hp : o.pending with
  | none => rfl
  | some i =>
      have hs := List.getElem?_eq_getElem (h.pending_lt hp)
      simp only [index_eq hs, ok_bind, lookUpFirst_eq, Option.bind_some, hs]
      rfl

def cutShortOf (o : Outline) (header : Nat) : Access Outline := do
  let blocks ← match o.stack with
    | [] => pure o.blocks
    | top :: _ => modify o.blocks top fun b =>
      if b.body.getLast? = some header then { b with body := b.body.dropLast } else b
  let statements ← modify o.statements header fun s => { s with context := .topLevel }
  return { o with blocks, statements, cutShort := o.stack ++ o.cutShort, stack := [] }

theorem cutShortOf_eq (h : o.Consistent) {header : Nat} (hp : o.pending = some header) :
    cutShortOf o header = .ok (o.cutShortAt header) := by
  rw [cutShortOf, modify_eq (h.pending_lt hp), Outline.cutShortAt]
  cases hs : o.stack with
  | nil => rfl
  | cons top rest =>
      simp only [modify_eq (h.stack_lt top (by simp [hs])), ok_bind]
      rfl

def pushOf (o : Outline) (kind : BlockKind) (header : Option Nat) (line column : Nat) : Access Outline := do
  let blocks := o.blocks ++ [⟨kind, header, line, column, false, []⟩]
  let index ← difference blocks.length 1
  let statements ← match header with
    | some h => modify o.statements h fun s => { s with opens := some index }
    | none => pure o.statements
  return { o with
    blocks, statements, stack := index :: o.stack, depth := o.depth + 1, pending := none, continuing := false }

theorem pushOf_eq {header : Option Nat} (h : ∀ i, header = some i → i < o.statements.length) (kind : BlockKind)
    (line column : Nat) : pushOf o kind header line column = .ok (o.push kind header line column) := by
  have hindex : ∀ b : Block, difference (o.blocks ++ [b]).length 1 = .ok o.blocks.length := by
    intro b
    rw [List.length_append, List.length_singleton, difference_eq (Nat.le_add_left 1 _), Nat.add_sub_cancel]
  simp only [pushOf, hindex, ok_bind]
  cases header with
  | none => rfl
  | some i =>
      simp only [modify_eq (h i rfl), ok_bind]
      rfl

def openBraceOf (o : Outline) (line column : Nat) : Access Outline := do
  let announced ← announcedOf o
  match ← contextOf o with
  | .topLevel => pushOf o (announced.getD .other) o.pending line column
  | .table _ | .nested =>
    match o.pending, announced with
    | some header, some .table => do
      pushOf (← cutShortOf o header) .table (some header) line column
    | header, _ => pushOf o .nested header line column
  | .enum _ | .ref _ | .other => pushOf o .other o.pending line column

theorem openBraceOf_eq (h : o.Consistent) (line column : Nat) :
    openBraceOf o line column = .ok (o.openBrace line column) := by
  have hlt : ∀ i, o.pending = some i → i < o.statements.length := fun _ hp => h.pending_lt hp
  rw [openBraceOf, announcedOf_eq h, ok_bind, contextOf_eq h, ok_bind, Outline.openBrace]
  cases hc : o.context with
  | topLevel => exact pushOf_eq hlt _ _ _
  | enum | ref | other => exact pushOf_eq hlt _ _ _
  | table | nested =>
      have hpush := pushOf_eq hlt .nested line column
      cases hp : o.pending with
      | none =>
          rw [hp] at hpush
          exact hpush
      | some header =>
          rw [hp] at hpush
          cases ha : o.announced with
          | none => exact hpush
          | some kind =>
              cases kind with
              | table =>
                  simp only [cutShortOf_eq h hp, ok_bind]
                  refine pushOf_eq (fun i hi => ?_) _ _ _
                  simpa [Outline.cutShortAt] using hlt i (hp.trans hi)
              | _ => exact hpush

/-! ## Closing braces -/

def closeOf (o : Outline) (block : Nat) : Access Outline := do
  return { o with blocks := ← modify o.blocks block fun b => { b with closed := true } }

def closeBraceOf (o : Outline) (l : Line) (start : Nat) : Access Outline := do
  let o := { o with continuing := false, pending := none }
  if o.depth = 0 then
    return { o with strayCloses := o.strayCloses ++ [⟨l.number, ← columnOf l start⟩] }
  else
    let o := { o with depth := ← difference o.depth 1 }
    match o.stack, o.cutShort with
    | top :: rest, _ => closeOf { o with stack := rest } top
    | [], next :: rest => closeOf { o with cutShort := rest } next
    | [], [] => return o

theorem closeBraceOf_eq (hb : o.ledger.Balanced) {start : Nat} (hstart : l.code.IsBoundary start) :
    closeBraceOf o l start = .ok (o.closeBrace l.number (l.column start)) := by
  have hlt : ∀ i ∈ o.stack ++ o.cutShort, i < o.blocks.length := by
    intro i hi
    simpa [Outline.ledger] using hb.lt_length hi
  rw [closeBraceOf, Outline.closeBrace]
  by_cases hdepth : o.depth = 0
  · simp only [hdepth, ↓reduceIte, columnOf_eq hstart, ok_bind, pure_eq_ok]
  · simp only [hdepth, ↓reduceIte, difference_eq (Nat.one_le_iff_ne_zero.mpr hdepth), ok_bind]
    cases hs : o.stack with
    | cons top rest =>
        simp only [closeOf, modify_eq (hlt top (by simp [hs])), ok_bind]
        rfl
    | nil =>
        cases hcut : o.cutShort with
        | cons next rest =>
            simp only [closeOf, modify_eq (hlt next (by simp [hcut])), ok_bind]
            rfl
        | nil => rfl

/-! ## The whole pass -/

def addEventOf (l : Line) (o : Outline) (e : Event) : Access Outline :=
  match e with
  | .text start _ => do
    let content ← contentOf l e
    if o.continuing && !o.statements.isEmpty then return o.appendToLast content else addTextOf o l start content
  | .openBrace start => do openBraceOf o l.number (← columnOf l start)
  | .closeBrace start => closeBraceOf o l start

/-- What makes sure that every index of an outline is one of a statement or block. -/
structure Indexed (o : Outline) : Prop where
  consistent : o.Consistent
  balanced : o.ledger.Balanced

theorem Indexed.addEvent (h : Indexed o) (l : Line) (e : Event) : Indexed (Outline.addEvent l o e) :=
  ⟨h.consistent.addEvent l e, (Outline.ledger_step o (.event l e)).symm ▸ h.balanced.step _⟩

theorem addEventOf_eq (h : Indexed o) {e : Event} (he : e ∈ l.events) :
    addEventOf l o e = .ok (Outline.addEvent l o e) := by
  obtain ⟨before, after, hcode, hstart⟩ := exists_around_of_mem_events he
  have hboundary : l.code.IsBoundary e.start := ⟨before, _, hcode, hstart.symm⟩
  cases e with
  | text start content =>
      rw [addEventOf, contentOf_eq he, ok_bind, Outline.addEvent]
      split
      · rfl
      · obtain rfl : start = Text.bytes before := hstart
        exact addTextOf_eq h.consistent hcode
  | openBrace start =>
      have hcolumn : columnOf l start = .ok (l.column start) := columnOf_eq hboundary
      rw [addEventOf, hcolumn, ok_bind]
      exact openBraceOf_eq h.consistent _ _
  | closeBrace start => exact closeBraceOf_eq h.balanced hboundary

def addLineOf (o : Outline) (l : Line) : Access Outline :=
  l.events.foldlM (addEventOf l) { o with continuing := l.continuesString }

theorem addLineOf_eq (h : Indexed o) (l : Line) : addLineOf o l = .ok (o.addLine l) ∧ Indexed (o.addLine l) :=
  foldlM_eq (P := Indexed) (fun _ e he ho => ⟨addEventOf_eq ho he, ho.addEvent l e⟩)
    ⟨h.consistent.setContinuing _, h.balanced⟩

def readSource (t : Text) : Access Source := do
  let lines ← readLines .code 1 t.lines
  return ⟨lines, ← lines.foldlM addLineOf Outline.empty⟩

theorem readSource_eq (t : Text) : readSource t = .ok (Source.ofText t) := by
  have hfold : (scan t).foldlM addLineOf Outline.empty = .ok ((scan t).foldl Outline.addLine Outline.empty) :=
    (foldlM_eq (P := Indexed) (fun _ l _ ho => addLineOf_eq ho l)
      ⟨Outline.consistent_empty, Ledger.balanced_empty⟩).1
  have hlines : readLines .code 1 t.lines = .ok (scan t) := readLines_eq _ _ _
  rw [readSource, hlines, ok_bind, hfold]
  rfl

/-! ## Views -/

def headerOf (o : Outline) (b : Block) : Access (Option Statement) :=
  match b.header with
  | some h => do return some (← index o.statements h)
  | none => return none

theorem headerOf_eq (h : o.Consistent) {b : Block} (hb : b ∈ o.blocks) : headerOf o b = .ok (o.header? b) := by
  rw [headerOf, Outline.header?]
  cases hp : b.header with
  | none => rfl
  | some i =>
      have hs := List.getElem?_eq_getElem (h.header_lt b hb i hp)
      simp only [index_eq hs, ok_bind, Option.bind_some, hs, pure_eq_ok]

def bodyOf (o : Outline) (b : Block) : Access (List Statement) := each (index o.statements) b.body

theorem bodyOf_eq (h : o.Consistent) {b : Block} (hb : b ∈ o.blocks) : bodyOf o b = .ok (o.body b) := by
  have hlt : ∀ i ∈ b.body, i < o.statements.length := by
    intro i hi
    obtain ⟨j, hj⟩ := List.getElem?_of_mem hb
    rw [h.body_eq j b hj, Outline.placedIn, List.mem_findIdxs_iff_exists_getElem_pos] at hi
    simpa [Outline.contexts] using hi.1
  rw [bodyOf, Outline.body]
  generalize b.body = is at hlt
  induction is with
  | nil => rfl
  | cons i rest ih =>
      have hs := List.getElem?_eq_getElem (hlt i List.mem_cons_self)
      rw [each, index_eq hs, ok_bind, ih fun j hj => hlt j (List.mem_cons_of_mem i hj), List.filterMap_cons, hs]
      rfl

end Access
end SchemaDiagram
