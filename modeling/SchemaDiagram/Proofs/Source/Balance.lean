import SchemaDiagram.Check.Brace
import SchemaDiagram.Proofs.Source.Pass
import SchemaDiagram.Proofs.Text.Cut

/-! # Balance of braces

The blocks that wait for their closing brace are those on the stack and those cut short. Cutting short
moves them from one list to the other, in order, so that both lists together are a stack of their own: an
opening brace puts a block on it and a closing brace takes one off. That stack never holds a block twice
and is as deep as the braces are.
-/
namespace SchemaDiagram

/-! ## Counting braces -/

namespace Step

def opensBlock : Step → Bool
  | event _ (.openBrace _) => true
  | event _ (.closeBrace _) | event _ (.text _ _) | newLine _ => false

/-- The depth of braces behind a step, by counting alone. -/
def count (depth : Nat) : Step → Nat
  | event _ (.openBrace _) => depth + 1
  | event _ (.closeBrace _) => depth - 1
  | event _ (.text _ _) | newLine _ => depth

/-- The depth of braces behind some steps. -/
def depth (steps : List Step) : Nat := steps.foldl count 0

/-- The place of a closing brace at depth zero. -/
def stray (depth : Nat) : Step → List StrayClose
  | event l (.closeBrace start) => if depth = 0 then [⟨l.number, l.column start⟩] else []
  | event _ (.openBrace _) | event _ (.text _ _) | newLine _ => []

/-- The closing braces at depth zero among steps that start at some depth. -/
def strays : Nat → List Step → List StrayClose
  | _, [] => []
  | depth, s :: rest => s.stray depth ++ strays (s.count depth) rest

end Step

/-! ## The stack of open blocks -/

/-- What the pass knows of braces: the blocks that wait for a closing one, the next to be closed first,
and of every block whether it is closed. -/
structure Ledger where
  waiting : List Nat
  closed : List Bool
  depth : Nat
  strays : List StrayClose

namespace Ledger

def closeBrace (k : Ledger) (place : StrayClose) : Ledger :=
  if k.depth = 0 then { k with strays := k.strays ++ [place] }
  else match k.waiting with
    | [] => { k with depth := k.depth - 1 }
    | next :: rest => { k with waiting := rest, closed := k.closed.set next true, depth := k.depth - 1 }

def step (k : Ledger) : Step → Ledger
  | .event _ (.openBrace _) =>
    { k with waiting := k.closed.length :: k.waiting, closed := k.closed ++ [false], depth := k.depth + 1 }
  | .event l (.closeBrace start) => k.closeBrace ⟨l.number, l.column start⟩
  | .event _ (.text _ _) | .newLine _ => k

structure Balanced (k : Ledger) : Prop where
  depth_eq : k.depth = k.waiting.length
  nodup : k.waiting.Nodup
  waiting_iff : ∀ i, i ∈ k.waiting ↔ k.closed[i]? = some false

variable {k : Ledger}

theorem balanced_empty : Balanced ⟨[], [], 0, []⟩ := ⟨rfl, List.nodup_nil, by simp⟩

theorem Balanced.lt_length (h : k.Balanced) {i : Nat} (hi : i ∈ k.waiting) : i < k.closed.length :=
  (List.getElem?_eq_some_iff.mp ((h.waiting_iff i).mp hi)).1

theorem Balanced.openBrace (h : k.Balanced) :
    Balanced { k with
      waiting := k.closed.length :: k.waiting, closed := k.closed ++ [false], depth := k.depth + 1 } := by
  refine ⟨congrArg (· + 1) h.depth_eq, List.nodup_cons.mpr ⟨fun hi => ?_, h.nodup⟩, fun i => ?_⟩
  · exact Nat.lt_irrefl _ (h.lt_length hi)
  · rw [List.mem_cons, h.waiting_iff i, List.getElem?_append, List.getElem?_singleton]
    split
    · next hlt => simp [Nat.ne_of_lt hlt]
    · next hge =>
        rw [List.getElem?_eq_none (by omega)]
        simp only [reduceCtorEq, or_false, ite_eq_left_iff, imp_false, not_not]
        omega

theorem Balanced.closeBrace (h : k.Balanced) (place : StrayClose) : (k.closeBrace place).Balanced := by
  rw [Ledger.closeBrace]
  split
  · exact ⟨h.depth_eq, h.nodup, h.waiting_iff⟩
  · next hdepth =>
      split
      · next hw =>
          rw [h.depth_eq, hw] at hdepth
          exact absurd rfl hdepth
      · next next rest hw =>
          have hnodup := hw ▸ h.nodup
          rw [List.nodup_cons] at hnodup
          refine ⟨by simp [h.depth_eq, hw], hnodup.2, fun i => ?_⟩
          have hi := h.waiting_iff i
          rw [hw, List.mem_cons] at hi
          rw [List.getElem?_set]
          split
          · next heq =>
              subst heq
              simp [hnodup.1, h.lt_length (i := next) (by simp [hw])]
          · next hne => rw [← hi, or_iff_right (Ne.symm hne)]

theorem Balanced.step (h : k.Balanced) (s : Step) : (k.step s).Balanced := by
  cases s with
  | newLine => exact h
  | event l e =>
      cases e with
      | text => exact h
      | openBrace => exact h.openBrace
      | closeBrace => exact h.closeBrace _

theorem depth_step (k : Ledger) (s : Step) : (k.step s).depth = s.count k.depth := by
  cases s with
  | newLine => rfl
  | event l e =>
      cases e with
      | text => rfl
      | openBrace => rfl
      | closeBrace start =>
          simp only [Ledger.step, Ledger.closeBrace, Step.count]
          split
          · next h => simp [h]
          · split <;> rfl

theorem length_closed_step (k : Ledger) (s : Step) :
    (k.step s).closed.length = k.closed.length + if s.opensBlock then 1 else 0 := by
  cases s with
  | newLine => rfl
  | event l e =>
      cases e with
      | text => rfl
      | openBrace => simp [Ledger.step, Step.opensBlock]
      | closeBrace start =>
          simp only [Ledger.step, Ledger.closeBrace]
          split
          · rfl
          · split <;> simp [Step.opensBlock]

theorem strays_step (k : Ledger) (s : Step) : (k.step s).strays = k.strays ++ s.stray k.depth := by
  cases s with
  | newLine => exact (List.append_nil _).symm
  | event l e =>
      cases e with
      | text => exact (List.append_nil _).symm
      | openBrace => exact (List.append_nil _).symm
      | closeBrace start =>
          simp only [Ledger.step, Ledger.closeBrace, Step.stray]
          split
          · rfl
          · split <;> exact (List.append_nil _).symm

/-- The blocks that are not closed are as many as wait. -/
theorem Balanced.countP_closed (h : k.Balanced) : k.closed.countP (! ·) = k.depth := by
  have hperm : k.waiting.Perm (k.closed.findIdxs (! ·)) := by
    rw [List.perm_ext_iff_of_nodup h.nodup List.nodup_findIdxs]
    intro i
    rw [h.waiting_iff, List.mem_findIdxs_iff_exists_getElem_pos, List.getElem?_eq_some_iff]
    simp
  rw [h.depth_eq, hperm.length_eq, List.length_findIdxs]

end Ledger

/-! ## The ledger of an outline -/

namespace Outline

variable {o : Outline}

def ledger (o : Outline) : Ledger where
  waiting := o.stack ++ o.cutShort
  closed := o.blocks.map Block.closed
  depth := o.depth
  strays := o.strayCloses

theorem ledger_addStatement (o : Outline) (s : Statement) : (o.addStatement s).ledger = o.ledger := by
  rw [ledger, map_blocks_addStatement fun _ _ => rfl]
  rfl

theorem ledger_addText (o : Outline) (l : Line) (start : Nat) (content : Text) :
    (o.addText l start content).ledger = o.ledger := by
  rcases addText_cases o l start content with ⟨-, hadd⟩ | ⟨-, s, -, -, -, hadd⟩
  · rw [hadd]
    rfl
  · rw [hadd, ledger_addStatement]

theorem ledger_cutShortAt (o : Outline) (header : Nat) : (o.cutShortAt header).ledger = o.ledger := by
  rw [ledger, map_blocks_cutShortAt fun _ _ => rfl]
  rfl

theorem ledger_push (o : Outline) (kind : BlockKind) (header : Option Nat) (line column : Nat) :
    (o.push kind header line column).ledger =
      { o.ledger with
        waiting := o.ledger.closed.length :: o.ledger.waiting
        closed := o.ledger.closed ++ [false]
        depth := o.ledger.depth + 1 } := by
  simp [push, ledger]

theorem ledger_openBrace (o : Outline) (line column : Nat) :
    (o.openBrace line column).ledger =
      { o.ledger with
        waiting := o.ledger.closed.length :: o.ledger.waiting
        closed := o.ledger.closed ++ [false]
        depth := o.ledger.depth + 1 } := by
  rcases openBrace_cases o line column with ⟨header, -, -, hopen⟩ | ⟨kind, -, hopen⟩
  · rw [hopen, ledger_push, ledger_cutShortAt]
  · rw [hopen, ledger_push]

theorem closed_close (blocks : List Block) (i : Nat) :
    (blocks.modify i fun b => { b with closed := true }).map Block.closed = (blocks.map Block.closed).set i true := by
  apply List.ext_getElem?
  intro j
  simp only [List.getElem?_map, List.getElem?_modify, List.getElem?_set, List.length_map]
  by_cases hij : i = j
  · subst hij
    by_cases hlt : i < blocks.length
    · simp [hlt]
    · simp [hlt]
  · simp [hij]

theorem ledger_closeBrace (o : Outline) (line column : Nat) :
    (o.closeBrace line column).ledger = o.ledger.closeBrace ⟨line, column⟩ := by
  simp only [closeBrace, Ledger.closeBrace, ledger]
  by_cases hdepth : o.depth = 0
  · simp only [hdepth, ↓reduceIte]
  · simp only [hdepth, ↓reduceIte]
    cases hstack : o.stack with
    | cons top rest => simp [close, closed_close]
    | nil =>
        cases hcut : o.cutShort with
        | cons next rest => simp [close, closed_close]
        | nil => rfl

theorem ledger_step (o : Outline) (s : Step) : (o.step s).ledger = o.ledger.step s := by
  cases s with
  | newLine => rfl
  | event l e =>
      cases e with
      | text start content =>
          simp only [step, addEvent]
          split
          · rfl
          · exact ledger_addText o l start content
      | openBrace => exact ledger_openBrace o _ _
      | closeBrace => exact ledger_closeBrace o _ _

theorem balanced_after (steps : List Step) : (after steps).ledger.Balanced := by
  refine after_induction (P := fun o => o.ledger.Balanced) Ledger.balanced_empty (fun o s h => ?_) steps
  rw [ledger_step]
  exact h.step s

/-! ## What the ledger says at the end -/

theorem ledger_after (steps : List Step) : (after steps).ledger = steps.foldl Ledger.step empty.ledger := by
  rw [after]
  generalize empty = o
  induction steps generalizing o with
  | nil => rfl
  | cons s rest ih => rw [List.foldl_cons, List.foldl_cons, ih, ledger_step]

theorem depth_after (steps : List Step) : (after steps).depth = Step.depth steps := by
  have hdepth : ∀ k : Ledger, (steps.foldl Ledger.step k).depth = steps.foldl Step.count k.depth := by
    induction steps with
    | nil => exact fun _ => rfl
    | cons s rest ih =>
        intro k
        rw [List.foldl_cons, List.foldl_cons, ih, Ledger.depth_step]
  exact (congrArg Ledger.depth (ledger_after steps)).trans (hdepth empty.ledger)

theorem length_blocks_after (steps : List Step) :
    (after steps).blocks.length = steps.countP Step.opensBlock := by
  have hlength : ∀ k : Ledger,
      (steps.foldl Ledger.step k).closed.length = k.closed.length + steps.countP Step.opensBlock := by
    induction steps with
    | nil => exact fun _ => rfl
    | cons s rest ih =>
        intro k
        rw [List.foldl_cons, ih, Ledger.length_closed_step, List.countP_cons]
        omega
  have hledger := congrArg (fun k => k.closed.length) (ledger_after steps)
  simpa [ledger, hlength, empty] using hledger

theorem strayCloses_after (steps : List Step) : (after steps).strayCloses = Step.strays 0 steps := by
  have hstrays : ∀ k : Ledger,
      (steps.foldl Ledger.step k).strays = k.strays ++ Step.strays k.depth steps := by
    induction steps with
    | nil => exact fun k => (List.append_nil _).symm
    | cons s rest ih =>
        intro k
        rw [List.foldl_cons, ih, Ledger.strays_step, Ledger.depth_step, List.append_assoc, Step.strays]
  exact (congrArg Ledger.strays (ledger_after steps)).trans (hstrays empty.ledger)

/-! ## Closing braces -/

theorem closeBrace_of_depth_eq_zero (h : o.depth = 0) (line column : Nat) :
    (o.closeBrace line column).strayCloses = o.strayCloses ++ [⟨line, column⟩] ∧
    (o.closeBrace line column).blocks = o.blocks := by
  simp [closeBrace, h]

theorem closeBrace_of_depth_ne_zero (hb : o.ledger.Balanced) (h : o.depth ≠ 0) (line column : Nat) :
    (o.closeBrace line column).strayCloses = o.strayCloses ∧
    ∃ i b, o.blocks[i]? = some b ∧ b.closed = false ∧
      (o.closeBrace line column).blocks = o.blocks.set i { b with closed := true } := by
  have hclose : ∀ {i : Nat}, i ∈ o.stack ++ o.cutShort → ∃ i' b, o.blocks[i']? = some b ∧ b.closed = false ∧
      (o.blocks.modify i fun b => { b with closed := true }) = o.blocks.set i' { b with closed := true } := by
    intro i hi
    have hflag : (o.blocks.map Block.closed)[i]? = some false := (hb.waiting_iff i).mp hi
    rw [List.getElem?_map, Option.map_eq_some_iff] at hflag
    obtain ⟨b, hib, hclosed⟩ := hflag
    refine ⟨i, b, hib, hclosed, ?_⟩
    rw [List.modify_eq_set_getElem?, hib]
    rfl
  simp only [closeBrace, h, ↓reduceIte]
  split
  · next top rest hstack => exact ⟨rfl, hclose (by simp [hstack])⟩
  · next next rest hstack hcut => exact ⟨rfl, hclose (by simp [hcut])⟩
  · next hstack hcut =>
      have hdepth : o.depth = (o.stack ++ o.cutShort).length := hb.depth_eq
      rw [hstack, hcut] at hdepth
      exact absurd hdepth h

end Outline

/-! ## The check of braces -/

theorem scan_ne_nil (t : Text) : scan t ≠ [] := by
  obtain ⟨raw, rest, hlines⟩ := List.exists_cons_of_ne_nil t.lines_ne_nil
  rw [scan, hlines]
  exact List.cons_ne_nil _ _

theorem Source.exists_lastCodeLine (t : Text) : ∃ l, (Source.ofText t).lastCodeLine? = some l := by
  have hlines : (Source.ofText t).lines ≠ [] := scan_ne_nil t
  rw [← Option.isSome_iff_exists, lastCodeLine?, Option.isSome_or, List.getLast?_isSome.mpr hlines]
  exact Bool.or_true _

theorem checkBraces_eq {s : Source} {l : Line} (h : s.lastCodeLine? = some l) :
    checkBraces s = s.outline.strayCloses.map (fun c => Problem.strayBrace.mark c.line c.column (c.column + 1)) ++
      if s.outline.unclosed = 0 then []
      else [(Problem.missingBraces s.outline.unclosed).mark l.number 1 l.endColumn] := by
  rw [checkBraces, h]
  cases s.outline.unclosed <;> rfl

/-- Closing braces that close nothing are found by counting, every other one closes one open block, and
the check of braces reports the former and how many are missing. -/
theorem Source.brace_accounting (text : Text) :
    (∀ done todo, text.steps = done ++ todo →
      (Outline.after done).depth = (Outline.after done).stack.length + (Outline.after done).cutShort.length ∧
      ((Outline.after done).stack ++ (Outline.after done).cutShort).Nodup) ∧
    (∀ done todo l start, text.steps = done ++ .event l (.closeBrace start) :: todo →
      let o := Outline.after done
      let o' := Outline.after (done ++ [.event l (.closeBrace start)])
      if Step.depth done = 0 then
        o'.strayCloses = o.strayCloses ++ [⟨l.number, l.column start⟩] ∧ o'.blocks = o.blocks
      else
        o'.strayCloses = o.strayCloses ∧ ∃ i b, o.blocks[i]? = some b ∧ b.closed = false ∧
          o'.blocks = o.blocks.set i { b with closed := true }) ∧
    (let o := (Source.ofText text).outline;
      o.blocks.length = text.steps.countP Step.opensBlock ∧ o.unclosed = o.blocks.countP (!·.closed) ∧
      o.unclosed = Step.depth text.steps ∧ o.strayCloses = Step.strays 0 text.steps) ∧
    ∃ missing,
      checkBraces (Source.ofText text) = (Step.strays 0 text.steps).map (fun c =>
        Diagnostic.mark .error c.line c.column (c.column + 1) "Unexpected closing brace") ++ missing ∧
      let n := (Source.ofText text).outline.unclosed
      (n = 0 → missing = []) ∧
      (n ≠ 0 → ∃ l, (Source.ofText text).lastCodeLine? = some l ∧
        missing = [Diagnostic.mark .error l.number 1 l.endColumn
          ("Missing " ++ toString n ++ " closing " ++ if n = 1 then "brace" else "braces")]) := by
  have houtline := Outline.outline_ofText text
  refine ⟨fun done todo _ => ?_, fun done todo l start _ => ?_, ?_, ?_⟩
  · have hb := Outline.balanced_after done
    exact ⟨hb.depth_eq.trans List.length_append, hb.nodup⟩
  · rw [Outline.after_concat, ← Outline.depth_after]
    split
    · next hdepth => exact Outline.closeBrace_of_depth_eq_zero hdepth _ _
    · next hdepth => exact Outline.closeBrace_of_depth_ne_zero (Outline.balanced_after done) hdepth _ _
  · have hb := (Outline.balanced_after text.steps).countP_closed
    simp only [Outline.ledger, List.countP_map] at hb
    rw [houtline]
    exact ⟨Outline.length_blocks_after _, hb.symm, Outline.depth_after _, Outline.strayCloses_after _⟩
  · obtain ⟨l, hl⟩ := exists_lastCodeLine text
    have hcheck := checkBraces_eq hl
    rw [show (ofText text).outline.strayCloses = Step.strays 0 text.steps by
      rw [houtline, Outline.strayCloses_after]] at hcheck
    exact ⟨_, hcheck, fun hn => if_pos hn, fun hn => ⟨l, hl, if_neg hn⟩⟩

/-- A table cut short by the next one and closed late, a brace too many and one too few. -/
def unevenBraces : Text :=
  "Table A \x7b\n id int\nTable B \x7b\n x int\n\x7d\n\x7d\n\x7d\nTable C \x7b".toList

/-- The last closing brace that closes a block, the one behind the first thirteen steps. -/
def lateClose : Step := .event ⟨6, false, [.closeBrace]⟩ (.closeBrace 0)

theorem Source.brace_accounting_unevenBraces :
    unevenBraces.steps = unevenBraces.steps.take 13 ++ lateClose :: unevenBraces.steps.drop 14 ∧
    ((Outline.after (unevenBraces.steps.take 13)).stack ++
      (Outline.after (unevenBraces.steps.take 13)).cutShort).Nodup ∧
    (∃ i b, (Outline.after (unevenBraces.steps.take 13)).blocks[i]? = some b ∧ b.closed = false ∧
      (Outline.after (unevenBraces.steps.take 13 ++ [lateClose])).blocks =
        (Outline.after (unevenBraces.steps.take 13)).blocks.set i { b with closed := true }) ∧
    (ofText unevenBraces).outline.unclosed ≠ 0 ∧
    ∃ missing, missing ≠ [] ∧ checkBraces (ofText unevenBraces) =
      (Step.strays 0 unevenBraces.steps).map (fun c =>
        Diagnostic.mark .error c.line c.column (c.column + 1) "Unexpected closing brace") ++ missing := by
  have hsteps : unevenBraces.steps = unevenBraces.steps.take 13 ++ lateClose :: unevenBraces.steps.drop 14 := by
    decide +kernel
  have hdepth : Step.depth (unevenBraces.steps.take 13) ≠ 0 := by decide +kernel
  have hunclosed : (ofText unevenBraces).outline.unclosed ≠ 0 := by decide +kernel
  obtain ⟨hwaiting, hclose, -, missing, hcheck, -, hmissing⟩ := brace_accounting unevenBraces
  have hlate := hclose _ _ _ _ hsteps
  rw [if_neg hdepth] at hlate
  obtain ⟨l, -, hl⟩ := hmissing hunclosed
  refine ⟨hsteps, (hwaiting _ _ hsteps).2, hlate.2, hunclosed, missing, ?_, hcheck⟩
  rw [hl]
  exact List.cons_ne_nil _ _

end SchemaDiagram
