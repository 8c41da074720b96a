import SchemaDiagram.Schema.Extract
import SchemaDiagram.Proofs.Source.Nesting
import SchemaDiagram.Proofs.Source.Position

/-! # A table without its closing brace

Between the closing brace of a table and the header of the next table, a pass that has met the brace and
one that has not stand in different places. The header is taken for a line of the first table by the pass
that still stands in it, until its own opening brace puts both passes in the same place again.
-/
namespace SchemaDiagram
/-- A brace, of either kind. -/
def Step.isBrace : Step → Bool
  | event _ (.openBrace _) | event _ (.closeBrace _) => true
  | event _ (.text _ _) | newLine _ => false

namespace Outline

variable {o : Outline}

/-! ## What extraction reads -/

theorem header?_skeleton (o : Outline) (b : Block) :
    o.skeleton.header? b.skeleton = (o.header? b).map Statement.skeleton := by
  cases hb : b.header with
  | none => simp [header?, Block.skeleton, hb]
  | some p => simp [header?, Block.skeleton, hb, skeleton]

theorem body_skeleton (o : Outline) (b : Block) :
    o.skeleton.body b.skeleton = (o.body b).map Statement.skeleton := by
  simp only [body, Block.skeleton, skeleton, List.getElem?_map, List.map_filterMap]

theorem tableLines_skeleton (o : Outline) (b : Block) : o.skeleton.tableLines b.skeleton = o.tableLines b := by
  simp only [tableLines, body_skeleton, List.filter_map, List.map_map]
  rfl

theorem table?_skeleton (o : Outline) (b : Block) : o.skeleton.table? b.skeleton = o.table? b := by
  simp only [table?, header?_skeleton, tableLines_skeleton]
  cases o.header? b <;> rfl

theorem enum?_skeleton (o : Outline) (b : Block) : o.skeleton.enum? b.skeleton = o.enum? b := by
  simp only [enum?, header?_skeleton, body_skeleton, List.filterMap_map]
  cases o.header? b <;> rfl

theorem refBlockName_skeleton (o : Outline) (block : Nat) : o.skeleton.refBlockName block = o.refBlockName block := by
  have hblock : o.skeleton.blocks[block]? = (o.blocks[block]?).map Block.skeleton := List.getElem?_map ..
  simp only [refBlockName, hblock]
  cases o.blocks[block]? with
  | none => rfl
  | some b =>
      simp only [Option.map_some, Option.bind_eq_bind, Option.bind_some, header?_skeleton]
      cases o.header? b <;> rfl

theorem relationship?_skeleton (o : Outline) (s : Statement) :
    o.skeleton.relationship? s.skeleton = o.relationship? s := by
  simp only [relationship?, Statement.skeleton, refBlockName_skeleton]

/-- Extraction reads neither positions nor balance. -/
theorem written_skeleton (o : Outline) : o.skeleton.written = o.written := by
  have htables : o.skeleton.tables = o.tables := by
    simp only [tables, skeleton, List.filter_map, List.filterMap_map]
    exact List.filterMap_congr fun b _ => table?_skeleton o b
  have henums : o.skeleton.enums = o.enums := by
    simp only [enums, skeleton, List.filter_map, List.filterMap_map]
    exact List.filterMap_congr fun b _ => enum?_skeleton o b
  have hrelationships : o.skeleton.standaloneRelationships = o.standaloneRelationships := by
    simp only [standaloneRelationships, skeleton, List.filterMap_map]
    exact List.filterMap_congr fun s _ => relationship?_skeleton o s
  rw [written, htables, henums, hrelationships, written]

/-! ## In front of the header -/

/-- The outline outside of all blocks. -/
def leave (o : Outline) : Outline := { o with stack := [], depth := 0, pending := none }

theorem exists_stack_of_context {top : Nat} (h : o.context = .table top) : ∃ rest, o.stack = top :: rest := by
  rw [context] at h
  split at h
  · cases h
  · next t rest hstack =>
      split at h
      · cases h
        exact ⟨rest, hstack⟩
      all_goals cases h

/-- In a table that is left at once, a new statement stands at top level. -/
theorem cutShortAt_addStatement {top : Nat} (h : o.context = .table top) (s : Statement) :
    (o.addStatement s).cutShortAt o.statements.length =
      { o with
        statements := o.statements ++ [{ s with context := .topLevel }]
        stack := []
        cutShort := o.stack ++ o.cutShort
        pending := some o.statements.length
        continuing := false } := by
  obtain ⟨rest, hstack⟩ := exists_stack_of_context h
  have hblocks : (o.blocks.modify top fun b => { b with body := b.body ++ [o.statements.length] }).modify top (fun b =>
      if b.body.getLast? = some o.statements.length then { b with body := b.body.dropLast } else b) = o.blocks := by
    rw [List.modify_modify_eq]
    refine Eq.trans (congrArg (o.blocks.modify top) (funext fun b => ?_)) (List.modify_id top o.blocks)
    simp
  simp only [cutShortAt, addStatement, h, Context.body?, hstack, hblocks, modify_concat]

theorem skeleton_leave_addStatement {top : Nat} (h : o.context = .table top) {s s' : Statement}
    (hs : s'.skeleton = { s with context := .topLevel }.skeleton) :
    (o.leave.addStatement s').skeleton = ((o.addStatement s).cutShortAt o.statements.length).skeleton := by
  have hleave : o.leave.addStatement s' = { o.leave with
      statements := o.statements ++ [s'], pending := some o.statements.length, continuing := false } := by
    rw [addStatement, context_of_nil rfl]
    rfl
  rw [hleave, cutShortAt_addStatement h]
  simp only [skeleton, leave, List.map_append, List.map_cons, List.map_nil, hs, List.length_nil]

/-- Inside and outside of a table, a pass meets the same statements. -/
theorem leave_step {top : Nat} (h : o.context = .table top) {s : Step} (hs : ¬s.isBrace) :
    (o.leave.step s = (o.step s).leave ∧ (o.step s).statements.length = o.statements.length ∧
      (o.step s).context = .table top) ∨
    (o.leave.step s).skeleton = ((o.step s).cutShortAt o.statements.length).skeleton ∧
      (o.step s).statements.length = o.statements.length + 1 ∧ (o.step s).context = .table top ∧
      (o.step s).pending = some o.statements.length := by
  cases s with
  | newLine l => exact .inl ⟨rfl, rfl, h⟩
  | event l e =>
      cases e with
      | openBrace start => exact (hs rfl).elim
      | closeBrace start => exact (hs rfl).elim
      | text start content =>
          have hcontinuing : o.leave.continuing = o.continuing := rfl
          have hempty : o.leave.statements.isEmpty = o.statements.isEmpty := rfl
          simp only [step, addEvent, hcontinuing, hempty]
          split
          · exact .inl ⟨rfl, List.length_modify .., h⟩
          rcases addText_cases o l start content with ⟨hblank, hadd⟩ | ⟨hne, s, htext, -, hopens, hadd⟩
          · rcases addText_cases o.leave l start content with ⟨-, hadd'⟩ | ⟨hne, -⟩
            · rw [hadd, hadd']
              exact .inl ⟨rfl, rfl, h⟩
            · exact absurd hblank hne
          · rcases addText_cases o.leave l start content with ⟨hblank, -⟩ | ⟨-, s', htext', hctx', hopens', hadd'⟩
            · exact absurd hblank hne
            · have hs' : s'.skeleton = { s with context := .topLevel }.skeleton := by
                rw [context_of_nil rfl] at hctx'
                simp only [Statement.skeleton, htext', htext, hctx', hopens', hopens]
              have hctx : (o.addStatement s).context = o.context :=
                context_congr o (o.addStatement s) rfl (kinds_addStatement s)
              rw [hadd, hadd', hctx]
              exact .inr ⟨skeleton_leave_addStatement h hs', List.length_append, h, rfl⟩

/-! ## Behind the header -/

theorem modify_comm {α : Type} {f g : α → α} (h : ∀ a, f (g a) = g (f a)) (l : List α) (i j : Nat) :
    (l.modify i f).modify j g = (l.modify j g).modify i f := by
  apply List.ext_getElem?
  intro k
  simp only [List.getElem?_modify]
  cases l[k]? with
  | none => rfl
  | some a => by_cases hi : i = k <;> by_cases hj : j = k <;> simp [hi, hj, h]

theorem appendToLast_cutShortAt (o : Outline) (header : Nat) (content : Text) :
    (o.cutShortAt header).appendToLast content = (o.appendToLast content).cutShortAt header := by
  have hstatements := modify_comm (f := fun s : Statement => { s with text := s.text ++ '\n' :: content.trimEnd })
    (g := fun s => { s with context := .topLevel }) (fun _ => rfl) o.statements (o.statements.length - 1) header
  simp only [appendToLast, cutShortAt, List.length_modify, hstatements]

theorem length_cutShortAt (o : Outline) (header : Nat) :
    (o.cutShortAt header).statements.length = o.statements.length := List.length_modify ..

/-- Text behind the header that is no statement of its own. -/
theorem cutShortAt_step {header : Nat} {s : Step} (hs : ¬s.isBrace)
    (hlen : ((o.cutShortAt header).step s).statements.length = o.statements.length) :
    (o.cutShortAt header).step s = (o.step s).cutShortAt header ∧ (o.step s).context = o.context ∧
      (o.step s).pending = o.pending := by
  cases s with
  | newLine l => exact ⟨rfl, rfl, rfl⟩
  | event l e =>
      cases e with
      | openBrace start => exact (hs rfl).elim
      | closeBrace start => exact (hs rfl).elim
      | text start content =>
          have hcontinuing : (o.cutShortAt header).continuing = o.continuing := rfl
          have hempty : (o.cutShortAt header).statements.isEmpty = o.statements.isEmpty := by
            rw [Bool.eq_iff_iff, List.isEmpty_iff, List.isEmpty_iff]
            exact List.modify_eq_nil_iff
          simp only [step, addEvent, hcontinuing, hempty] at hlen ⊢
          split
          · exact ⟨appendToLast_cutShortAt o header content, rfl, rfl⟩
          · next hcase =>
              rw [if_neg hcase] at hlen
              rcases addText_cases (o.cutShortAt header) l start content with ⟨hblank, hadd⟩ | ⟨-, s, -, -, -, hadd⟩
              · rcases addText_cases o l start content with ⟨-, hadd'⟩ | ⟨hne, -⟩
                · rw [hadd, hadd']
                  exact ⟨rfl, rfl, rfl⟩
                · exact absurd hblank hne
              · rw [hadd, addStatement, List.length_append, length_cutShortAt] at hlen
                exact absurd hlen (Nat.succ_ne_self _)

theorem length_statements_step (o : Outline) (s : Step) : o.statements.length ≤ (o.step s).statements.length := by
  have hpush : ∀ (o : Outline) kind header line column,
      (o.push kind header line column).statements.length = o.statements.length := by
    intro o kind header line column
    simpa [texts] using congrArg List.length (o.texts_push kind header line column)
  rcases o.step_cases s with
    ⟨continuing, hs⟩ | ⟨content, hs⟩ | ⟨added, -, -, hs⟩ | ⟨line, column, hs⟩ | ⟨line, column, hs⟩
  · rw [hs]
  · rw [hs, appendToLast, List.length_modify]
  · rw [hs, addStatement, List.length_append]
    exact Nat.le_add_right _ _
  · rcases openBrace_cases o line column with ⟨header, -, -, hopen⟩ | ⟨kind, -, hopen⟩
    · rw [hs, hopen, hpush, length_cutShortAt]
    · rw [hs, hopen, hpush]
  · rw [hs, (closeBrace_frame o line column).1]

theorem length_statements_foldl (o : Outline) (steps : List Step) :
    o.statements.length ≤ (steps.foldl step o).statements.length := by
  induction steps generalizing o with
  | nil => exact Nat.le_refl _
  | cons s rest ih => exact Nat.le_trans (length_statements_step o s) (ih (o.step s))

theorem foldl_cutShortAt {header : Nat} {steps : List Step} (hs : ∀ s ∈ steps, ¬s.isBrace)
    (hlen : (steps.foldl step (o.cutShortAt header)).statements.length = o.statements.length) :
    steps.foldl step (o.cutShortAt header) = (steps.foldl step o).cutShortAt header ∧
      (steps.foldl step o).context = o.context ∧ (steps.foldl step o).pending = o.pending := by
  induction steps generalizing o with
  | nil => exact ⟨rfl, rfl, rfl⟩
  | cons s rest ih =>
      rw [List.foldl_cons] at hlen
      have hfirst := length_statements_step (o.cutShortAt header) s
      have hlast := length_statements_foldl ((o.cutShortAt header).step s) rest
      have hcut := length_cutShortAt o header
      have hstay : ((o.cutShortAt header).step s).statements.length = o.statements.length := by omega
      obtain ⟨hstep, hctx, hp⟩ := cutShortAt_step (hs s List.mem_cons_self) hstay
      have hcut' := length_cutShortAt (o.step s) header
      rw [hstep] at hfirst hlast hlen
      have hrest : (rest.foldl step ((o.step s).cutShortAt header)).statements.length = (o.step s).statements.length := by
        omega
      obtain ⟨hfoldl, hctx', hp'⟩ := ih (fun s hmem => hs s (List.mem_cons_of_mem _ hmem)) hrest
      rw [List.foldl_cons, List.foldl_cons, hstep, hfoldl]
      exact ⟨rfl, hctx'.trans hctx, hp'.trans hp⟩

theorem length_statements_of_skeleton_eq {o' : Outline} (h : o.skeleton = o'.skeleton) :
    o.statements.length = o'.statements.length := by
  simpa [skeleton] using congrArg (fun o => o.statements.length) h

/-- Two passes, one inside and one outside of a table, over text with one statement. -/
theorem skeleton_foldl_leave {top : Nat} (h : o.context = .table top) {steps : List Step}
    (hs : ∀ s ∈ steps, ¬s.isBrace)
    (hlen : (steps.foldl step o.leave).statements.length = o.statements.length + 1) :
    (steps.foldl step o.leave).skeleton = ((steps.foldl step o).cutShortAt o.statements.length).skeleton ∧
      (steps.foldl step o).context = .table top ∧ (steps.foldl step o).pending = some o.statements.length := by
  induction steps generalizing o with
  | nil => exact absurd hlen (Nat.succ_ne_self _).symm
  | cons s rest ih =>
      have hrest : ∀ s ∈ rest, ¬s.isBrace := fun s hmem => hs s (List.mem_cons_of_mem _ hmem)
      rw [List.foldl_cons] at hlen
      rw [List.foldl_cons, List.foldl_cons]
      -- up to the header the passes differ by the table, behind it by what the header will cut short
      rcases leave_step h (hs s List.mem_cons_self) with ⟨hstep, hl, hctx⟩ | ⟨hstep, hl, hctx, hp⟩
      · rw [hstep] at hlen
        rw [hstep, ← hl]
        exact ih hctx hrest (hlen.trans (congrArg (· + 1) hl.symm))
      · have hcovered : (o.leave.step s).Covered := Covered.step (o := o.leave) (Nat.le_refl 0) s
        have hskeleton := skeleton_foldl hcovered (covered_cutShortAt (o.step s) _) hstep
          (rfl : rest.map Step.skeleton = rest.map Step.skeleton)
        have hlen' := (length_statements_of_skeleton_eq hskeleton).symm.trans (hlen.trans hl.symm)
        obtain ⟨hfoldl, hctx', hp'⟩ := foldl_cutShortAt hrest hlen'
        rw [← hfoldl, hctx', hp']
        exact ⟨hskeleton, hctx, hp⟩

/-! ## The header's brace -/

theorem announced_eq (o : Outline) :
    o.announced = o.pending.bind fun h => (o.texts[h]?).map BlockKind.ofHeader := by
  simp only [announced, texts, List.getElem?_map, Option.map_map]
  rfl

theorem announced_cutShortAt (o : Outline) (header : Nat) : (o.cutShortAt header).announced = o.announced := by
  rw [announced_eq, texts_cutShortAt, announced_eq]
  rfl

/-- The opening brace behind the header of a table cuts short what is open, also where nothing is. -/
theorem openBrace_cutShortAt {top header : Nat} (h : o.context = .table top) (hp : o.pending = some header)
    (ha : o.announced = some .table) (line column : Nat) :
    (o.cutShortAt header).openBrace line column = o.openBrace line column := by
  have hannounced := (announced_cutShortAt o header).trans ha
  have hpending : (o.cutShortAt header).pending = some header := hp
  simp only [openBrace, context_of_nil (o := o.cutShortAt header) rfl, h, hp, ha, hannounced, hpending,
    Option.getD_some]

/-- From the closing brace of a table, or from the new line in its place, to behind the opening brace of the
next table. -/
theorem skeleton_table_to_table {q : Outline} (ho : o.Covered) (hq : q.skeleton = o.skeleton) {top : Nat}
    (hstack : o.stack = [top]) (hkind : o.kinds[top]? = some .table) {l₂ : Line}
    (hl₂ : l₂.continuesString = false) {between between' : List Step}
    (hsteps : between'.map Step.skeleton = between.map Step.skeleton) (hbetween : ∀ s ∈ between', ¬s.isBrace)
    {line column : Nat} {s : Statement}
    (hheader : (between.foldl step (o.closeBrace line column)).statements = o.statements ++ [s])
    (htable : BlockKind.ofHeader s.text = .table) (line₁ column₁ line₂ column₂ : Nat) :
    ((between.foldl step (o.closeBrace line column)).openBrace line₁ column₁).skeleton =
      ((between'.foldl step (q.step (.newLine l₂))).openBrace line₂ column₂).skeleton := by
  generalize hp : q.step (.newLine l₂) = p
  have hctx : p.context = .table top := by
    have hqctx : p.context = q.context := by
      rw [← hp]
      rfl
    rw [hqctx, ← context_skeleton, hq, context_skeleton, context_of_cons hstack hkind, BlockKind.context]
  have hclose : (o.closeBrace line column).skeleton = p.leave.skeleton := by
    have hleave : p.leave.skeleton = { q.skeleton with
        stack := [], depth := 0, pending := none, continuing := l₂.continuesString } := by
      rw [← hp]
      rfl
    rw [skeleton_closeBrace ho, hstack, hleave, hq, hl₂]
    rfl
  have hcovered : p.leave.Covered := Nat.le_refl 0
  have hrun := skeleton_foldl (ho.closeBrace line column) hcovered hclose hsteps.symm
  have hlen : p.statements.length = o.statements.length := by
    have hlength := length_statements_of_skeleton_eq hq
    rw [← hp]
    exact hlength
  have hone := length_statements_of_skeleton_eq hrun
  rw [hheader, List.length_append, List.length_singleton, ← hlen] at hone
  obtain ⟨hleave, hctx', hpending⟩ := skeleton_foldl_leave hctx hbetween hone.symm
  rw [hleave] at hrun
  generalize between.foldl step (o.closeBrace line column) = o₁ at hrun hheader
  generalize between'.foldl step p = p₁ at hrun hctx' hpending
  have hannounced : p₁.announced = some .table := by
    have hpending₁ : o₁.pending = some p.statements.length := (congrArg Outline.pending hrun).trans hpending
    rw [← announced_cutShortAt, ← announced_skeleton, ← hrun, announced_skeleton, announced, hpending₁, hheader, hlen]
    simp [htable]
  rw [skeleton_openBrace o₁ _ _ 0 0, hrun, ← skeleton_openBrace _ line₂ column₂ 0 0,
    openBrace_cutShortAt hctx' hpending hannounced]

end Outline

theorem Step.isBrace_skeleton (s : Step) : s.skeleton.isBrace = s.isBrace := by
  cases s with
  | newLine l => rfl
  | event l e => cases e <;> rfl

theorem Step.exists_openBrace_of_skeleton_eq {s : Step} {l : Line} {start : Nat}
    (h : s.skeleton = (event l (.openBrace start)).skeleton) : ∃ l' start', s = event l' (.openBrace start') := by
  cases s with
  | newLine l' => cases h
  | event l' e =>
      cases e with
      | text start' content => cases h
      | openBrace start' => exact ⟨l', start', rfl⟩
      | closeBrace start' => cases h

/-- The closing brace of a table may be missing in front of the header of the next table: with a line feed in
its place, the text declares the same. -/
theorem Schema.ofText_missing_brace {pre post : Text} {done between rest : List Step} {l l' : Line}
    {start start' top : Nat} {below : List Nat} {s : Statement}
    (hsteps : Text.steps (pre ++ '\x7d' :: post) =
      done ++ .event l (.closeBrace start) :: (between ++ .event l' (.openBrace start') :: rest))
    (hline : l.number = pre.lines.length) (hcolumn : l.column start = pre.lastLine.length + 1)
    (hstack : (Outline.after done).stack = top :: below)
    (hkind : (Outline.after done).kinds[top]? = some .table)
    (hbetween : ∀ x ∈ between, ¬x.isBrace)
    (hheader : (Outline.after (done ++ .event l (.closeBrace start) :: between)).statements =
      (Outline.after done).statements ++ [s])
    (hword : ∃ x, firstToken? s.text = some x ∧ x.isWord "table" = true) :
    ofText (pre ++ '\n' :: post) = ofText (pre ++ '\x7d' :: post) := by
  obtain ⟨done', l₂, todo', hsteps', hl₂, hskeleton, htodo⟩ := Text.steps_without_brace hsteps hline hcolumn
  rw [List.map_append, List.map_cons] at htodo
  obtain ⟨between', more, rfl, hbetween', hmore⟩ := List.map_eq_append_iff.mp htodo
  obtain ⟨brace, rest', rfl, hbrace, hrest'⟩ := List.map_eq_cons_iff.mp hmore
  obtain ⟨l₃, start₃, rfl⟩ := Step.exists_openBrace_of_skeleton_eq hbrace
  obtain rfl := (Outline.nested_after done).eq_nil_of_hasBody hstack hkind trivial
  have hplain : ∀ x ∈ between', ¬x.isBrace := by
    intro x hx
    have hmem : x.skeleton ∈ between.map Step.skeleton := hbetween' ▸ List.mem_map_of_mem hx
    obtain ⟨y, hy, hxy⟩ := List.mem_map.mp hmem
    rw [← Step.isBrace_skeleton, ← hxy, Step.isBrace_skeleton]
    exact hbetween y hy
  rw [Outline.after_append, List.foldl_cons] at hheader
  have hopen := Outline.skeleton_table_to_table (Outline.covered_after done) hskeleton hstack hkind hl₂ hbetween'
    hplain hheader (BlockKind.ofHeader_eq_table_iff.mpr hword) l'.number (l'.column start') l₃.number
    (l₃.column start₃)
  have hend : (Outline.after (Text.steps (pre ++ '\x7d' :: post))).skeleton =
      (Outline.after (Text.steps (pre ++ '\n' :: post))).skeleton := by
    rw [hsteps, hsteps', Outline.after_append, Outline.after_append, List.foldl_cons, List.foldl_cons,
      List.foldl_append, List.foldl_append, List.foldl_cons, List.foldl_cons]
    refine Outline.skeleton_foldl ?_ ?_ hopen hrest'.symm
    · exact (((Outline.covered_after done).closeBrace _ _).foldl between).step (.event l' (.openBrace start'))
    · exact (((Outline.covered_after done').step (.newLine l₂)).foldl between').step (.event l₃ (.openBrace start₃))
  rw [ofText, ofText, Outline.outline_ofText, Outline.outline_ofText, ← Outline.written_skeleton, ← hend,
    Outline.written_skeleton]

/-- A table up to its closing brace. -/
def untilBrace : Text := "Table A \x7b\n id int\n".toList

/-- What follows the brace: a table with a header of two lines, and a reference. -/
def behindBrace : Text := "\nTable B [note: '''x\ny'''] \x7b\n a_id int\n\x7d\nRef: B.a_id > A.id".toList

theorem Schema.ofText_missing_brace_behindBrace :
    ofText (untilBrace ++ '\n' :: behindBrace) = ofText (untilBrace ++ '\x7d' :: behindBrace) ∧
    (ofText (untilBrace ++ '\n' :: behindBrace)).tables.length = 2 := by
  have hsteps : Text.steps (untilBrace ++ '\x7d' :: behindBrace) =
      (Text.steps (untilBrace ++ '\x7d' :: behindBrace)).take 6 ++
        .event ⟨3, false, [.closeBrace]⟩ (.closeBrace 0) ::
        (((Text.steps (untilBrace ++ '\x7d' :: behindBrace)).drop 7).take 4 ++
          .event ⟨5, true, "y'''] ".toList.map .plain ++ [.openBrace]⟩ (.openBrace 6) ::
          (Text.steps (untilBrace ++ '\x7d' :: behindBrace)).drop 12) := by decide +kernel
  have hheader : (Outline.after ((Text.steps (untilBrace ++ '\x7d' :: behindBrace)).take 6 ++
        .event ⟨3, false, [.closeBrace]⟩ (.closeBrace 0) ::
        ((Text.steps (untilBrace ++ '\x7d' :: behindBrace)).drop 7).take 4)).statements =
      (Outline.after ((Text.steps (untilBrace ++ '\x7d' :: behindBrace)).take 6)).statements ++
        [⟨4, "Table B [note: '''x\ny''']".toList, 1, 20, .topLevel, none⟩] := by decide +kernel
  have hstack : (Outline.after ((Text.steps (untilBrace ++ '\x7d' :: behindBrace)).take 6)).stack = [0] := by
    decide +kernel
  have hkind : (Outline.after ((Text.steps (untilBrace ++ '\x7d' :: behindBrace)).take 6)).kinds[0]? =
      some .table := by decide +kernel
  refine ⟨ofText_missing_brace hsteps (by decide +kernel) (by decide +kernel) hstack hkind (by decide +kernel)
    hheader ⟨⟨.word "Table".toList, 0, 5⟩, by decide +kernel, by decide +kernel⟩, by decide +kernel⟩

end SchemaDiagram
