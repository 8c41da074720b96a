import SchemaDiagram.Proofs.Source.Balance
import SchemaDiagram.Proofs.Text.Blank

/-! # The pass without positions and balance

Where things stand, which blocks are closed and which are cut short has no say in what the pass makes of
the next step. Two passes that agree on everything else go on to agree as long as they meet the same steps.
-/
namespace SchemaDiagram

def Statement.skeleton (s : Statement) : Statement := { s with line := 0, column := 0, endColumn := 0 }

def Block.skeleton (b : Block) : Block := { b with line := 0, column := 0, closed := false }

/-- Blanks at the end of a text are never kept. -/
def Event.skeleton : Event → Event
  | text _ content => text 0 content.trimEnd
  | openBrace _ => openBrace 0
  | closeBrace _ => closeBrace 0

def Step.skeleton : Step → Step
  | newLine l => newLine ⟨0, l.continuesString, []⟩
  | event _ e => event ⟨0, false, []⟩ e.skeleton

namespace Outline

variable {o o' : Outline}

/-- All blocks that are open are on the stack. -/
def skeleton (o : Outline) : Outline where
  statements := o.statements.map Statement.skeleton
  blocks := o.blocks.map Block.skeleton
  strayCloses := []
  stack := o.stack
  cutShort := []
  depth := o.stack.length
  pending := o.pending
  continuing := o.continuing

/-- Every block on the stack has its opening brace. -/
def Covered (o : Outline) : Prop := o.stack.length ≤ o.depth

theorem covered_skeleton (o : Outline) : o.skeleton.Covered := Nat.le_refl _

theorem Covered.push (h : o.Covered) (kind : BlockKind) (header : Option Nat) (line column : Nat) :
    (o.push kind header line column).Covered := Nat.succ_le_succ h

theorem covered_cutShortAt (o : Outline) (header : Nat) : (o.cutShortAt header).Covered := Nat.zero_le _

theorem Covered.closeBrace (h : o.Covered) (line column : Nat) : (o.closeBrace line column).Covered := by
  simp only [Covered] at h
  simp only [Outline.closeBrace]
  split
  · exact h
  · split
    · next top rest hstack =>
        rw [hstack, List.length_cons] at h
        simp only [Covered, close]
        omega
    · next next rest hstack hcut => simp [Covered, close, hstack]
    · next hstack hcut => simp [Covered, hstack]

theorem Covered.openBrace (h : o.Covered) (line column : Nat) : (o.openBrace line column).Covered := by
  rcases openBrace_cases o line column with ⟨header, -, -, hopen⟩ | ⟨kind, -, hopen⟩
  · rw [hopen]
    exact (o.covered_cutShortAt header).push _ _ _ _
  · rw [hopen]
    exact h.push _ _ _ _

theorem Covered.step (h : o.Covered) (s : Step) : (o.step s).Covered := by
  rcases o.step_cases s with
    ⟨continuing, hs⟩ | ⟨content, hs⟩ | ⟨added, -, -, hs⟩ | ⟨line, column, hs⟩ | ⟨line, column, hs⟩
  · rw [hs]
    exact h
  · rw [hs]
    exact h
  · rw [hs]
    exact h
  · rw [hs]
    exact h.openBrace line column
  · rw [hs]
    exact h.closeBrace line column

theorem Covered.foldl (h : o.Covered) (steps : List Step) : (steps.foldl Outline.step o).Covered := by
  induction steps generalizing o with
  | nil => exact h
  | cons s rest ih => exact ih (h.step s)

theorem covered_after (steps : List Step) : (after steps).Covered := Covered.foldl (o := empty) (Nat.le_refl 0) steps

theorem skeleton_skeleton (o : Outline) : o.skeleton.skeleton = o.skeleton := by
  simp only [skeleton, List.map_map, Outline.mk.injEq, and_true]
  exact ⟨rfl, rfl⟩

theorem context_skeleton (o : Outline) : o.skeleton.context = o.context := by
  refine context_congr o o.skeleton rfl ?_
  simp only [kinds, skeleton, List.map_map]
  rfl

theorem announced_skeleton (o : Outline) : o.skeleton.announced = o.announced := by
  simp only [announced, skeleton, List.getElem?_map, Option.map_map]
  rfl

theorem skeleton_appendToLast (o : Outline) (content : Text) :
    (o.appendToLast content).skeleton = o.skeleton.appendToLast content := by
  simp only [appendToLast, skeleton, List.length_map, Outline.mk.injEq, and_true]
  apply map_modify
  exact fun _ => rfl

theorem skeleton_addStatement (o : Outline) (s : Statement) :
    (o.addStatement s).skeleton = o.skeleton.addStatement s.skeleton := by
  simp only [addStatement, context_skeleton]
  simp only [skeleton, List.map_append, List.map_cons, List.map_nil, List.length_map, Outline.mk.injEq, true_and,
    and_true]
  split
  · apply map_modify
    exact fun _ => rfl
  · rfl

theorem skeleton_push (o : Outline) (kind : BlockKind) (header : Option Nat) (line column : Nat) :
    (o.push kind header line column).skeleton = o.skeleton.push kind header 0 0 := by
  simp only [push, skeleton, List.map_append, List.map_cons, List.map_nil, List.length_map, List.length_cons,
    Block.skeleton, Outline.mk.injEq, and_true]
  cases header with
  | none => rfl
  | some h =>
      apply map_modify
      exact fun _ => rfl

theorem skeleton_cutShortAt (o : Outline) (header : Nat) :
    (o.cutShortAt header).skeleton = (o.skeleton.cutShortAt header).skeleton := by
  have hstatements : ∀ statements : List Statement,
      (statements.modify header fun s => { s with context := .topLevel }).map Statement.skeleton =
      (statements.map Statement.skeleton).modify header fun s => { s with context := .topLevel } := by
    intro statements
    apply map_modify
    exact fun _ => rfl
  have hblocks : ∀ (blocks : List Block) (top : Nat),
      (blocks.modify top fun b =>
        if b.body.getLast? = some header then { b with body := b.body.dropLast } else b).map Block.skeleton =
      (blocks.map Block.skeleton).modify top fun b =>
        if b.body.getLast? = some header then { b with body := b.body.dropLast } else b := by
    intro blocks top
    apply map_modify
    intro b
    simp only [apply_ite Block.skeleton]
    rfl
  have hss := skeleton_skeleton o
  simp only [skeleton, Outline.mk.injEq, and_true] at hss
  simp only [cutShortAt, skeleton, Outline.mk.injEq, and_true, hstatements, hss.1, true_and]
  cases o.stack with
  | nil => exact hss.2.symm
  | cons top rest => simp only [hblocks, hss.2]

theorem skeleton_closeBrace (h : o.Covered) (line column : Nat) :
    (o.closeBrace line column).skeleton =
      { o.skeleton with
        stack := o.stack.tail
        depth := o.stack.tail.length
        pending := none
        continuing := false } := by
  have hclosed : ∀ i : Nat, (o.blocks.modify i fun b => { b with closed := true }).map Block.skeleton =
      o.blocks.map Block.skeleton := by
    intro i
    apply map_modify_of_eq
    exact fun _ => rfl
  simp only [closeBrace]
  split
  · next hdepth =>
      have hstack : o.stack = [] := List.length_eq_zero_iff.mp (Nat.eq_zero_of_le_zero (hdepth ▸ h))
      simp only [skeleton, hstack, List.tail_nil]
  · split
    · next top rest hstack => simp only [skeleton, close, hclosed, hstack, List.tail_cons]
    · next next rest hstack hcut => simp only [skeleton, close, hclosed, hstack, List.tail_nil]
    · next hstack hcut => simp only [skeleton, hstack, List.tail_nil]

theorem skeleton_addText (o : Outline) (l l' : Line) (start start' : Nat) (content : Text) :
    (o.addText l start content).skeleton = (o.skeleton.addText l' start' content.trimEnd).skeleton := by
  rcases addText_cases o l start content with ⟨hblank, hadd⟩ | ⟨hne, s, htext, hctx, hopens, hadd⟩
  · rcases addText_cases o.skeleton l' start' content.trimEnd with ⟨-, hadd'⟩ | ⟨hne', -⟩
    · rw [hadd, hadd']
      exact (skeleton_skeleton { o with continuing := false }).symm
    · exact (hne' ((Text.trim_trimEnd content).trans hblank)).elim
  · rcases addText_cases o.skeleton l' start' content.trimEnd with ⟨hblank', -⟩ | ⟨-, s', htext', hctx', hopens', hadd'⟩
    · exact (hne ((Text.trim_trimEnd content).symm.trans hblank')).elim
    · have hs : s.skeleton = s'.skeleton := by
        rw [Text.trim_trimEnd, ← htext] at htext'
        rw [context_skeleton, ← hctx] at hctx'
        rw [← hopens] at hopens'
        simp only [Statement.skeleton, htext', hctx', hopens']
      rw [hadd, hadd', skeleton_addStatement, skeleton_addStatement, skeleton_skeleton, hs]

theorem skeleton_openBrace (o : Outline) (line column line' column' : Nat) :
    (o.openBrace line column).skeleton = (o.skeleton.openBrace line' column').skeleton := by
  have hpush : ∀ kind header, (o.push kind header line column).skeleton =
      (o.skeleton.push kind header line' column').skeleton := by
    intro kind header
    rw [skeleton_push, skeleton_push, skeleton_skeleton]
  have hcut : ∀ header, ((o.cutShortAt header).push .table (some header) line column).skeleton =
      ((o.skeleton.cutShortAt header).push .table (some header) line' column').skeleton := by
    intro header
    rw [skeleton_push, skeleton_push, skeleton_cutShortAt]
  have hpending : o.skeleton.pending = o.pending := rfl
  simp only [openBrace, context_skeleton, announced_skeleton, hpending]
  split
  · exact hpush _ _
  · split
    · exact hcut _
    · exact hpush _ _
  · split
    · exact hcut _
    · exact hpush _ _
  all_goals exact hpush _ _

theorem skeleton_step (h : o.Covered) (s : Step) :
    (o.step s).skeleton = (o.skeleton.step s.skeleton).skeleton := by
  cases s with
  | newLine l => exact (skeleton_skeleton { o with continuing := l.continuesString }).symm
  | event l e =>
      cases e with
      | openBrace start => exact skeleton_openBrace o _ _ _ _
      | closeBrace start =>
          have hclose := skeleton_closeBrace (covered_skeleton o) 0 (Line.column ⟨0, false, []⟩ 0)
          rw [skeleton_skeleton] at hclose
          exact (skeleton_closeBrace h _ _).trans hclose.symm
      | text start content =>
          have hempty : o.skeleton.statements.isEmpty = o.statements.isEmpty := List.isEmpty_map
          have hcontinuing : o.skeleton.continuing = o.continuing := rfl
          simp only [step, addEvent, Step.skeleton, Event.skeleton, hempty, hcontinuing]
          split
          · rw [skeleton_appendToLast, skeleton_appendToLast, skeleton_skeleton, appendToLast, appendToLast,
              Text.trimEnd_trimEnd]
          · exact skeleton_addText o _ _ _ _ content

/-- Passes with equal skeletons that meet the same steps end with equal skeletons. -/
theorem skeleton_foldl (h : o.Covered) (h' : o'.Covered) (ho : o.skeleton = o'.skeleton)
    {steps steps' : List Step} (hsteps : steps.map Step.skeleton = steps'.map Step.skeleton) :
    (steps.foldl step o).skeleton = (steps'.foldl step o').skeleton := by
  induction steps generalizing o o' steps' with
  | nil =>
      obtain rfl := List.map_eq_nil_iff.mp hsteps.symm
      exact ho
  | cons s rest ih =>
      obtain ⟨s', rest', rfl, hs, hrest⟩ := List.map_eq_cons_iff.mp hsteps.symm
      rw [List.foldl_cons, List.foldl_cons]
      refine ih (h.step s) (h'.step s') ?_ hrest.symm
      rw [skeleton_step h, skeleton_step h', ho, hs]

end Outline

/-! ## Outlines that differ in positions -/

namespace Step

theorem count_skeleton (s : Step) (depth : Nat) : s.skeleton.count depth = s.count depth := by
  cases s with
  | newLine => rfl
  | event l e => cases e <;> rfl

theorem length_stray_skeleton (s : Step) (depth : Nat) :
    (s.skeleton.stray depth).length = (s.stray depth).length := by
  cases s with
  | newLine => rfl
  | event l e =>
      cases e with
      | text | openBrace => rfl
      | closeBrace start =>
          simp only [skeleton, Event.skeleton, stray]
          split <;> rfl

end Step

namespace Outline

/-- Besides positions, the outlines differ in the blocks that are closed or cut short at most. -/
structure Alike (o o' : Outline) : Prop where
  skeleton_eq : o.skeleton = o'.skeleton
  depth_eq : o.depth = o'.depth
  strayCloses_eq : o.strayCloses.length = o'.strayCloses.length

namespace Alike

variable {o o' : Outline}

protected theorem rfl : o.Alike o := ⟨.refl _, .refl _, .refl _⟩

theorem trans (h : o.Alike o') {o'' : Outline} (h' : o'.Alike o'') : o.Alike o'' :=
  ⟨h.skeleton_eq.trans h'.skeleton_eq, h.depth_eq.trans h'.depth_eq, h.strayCloses_eq.trans h'.strayCloses_eq⟩

theorem continuing_eq (h : o.Alike o') : o.continuing = o'.continuing :=
  (congrArg Outline.continuing h.skeleton_eq : o.skeleton.continuing = o'.skeleton.continuing)

/-- The ledger has all that is left to compare. -/
theorem of_ledger (hskeleton : o.skeleton = o'.skeleton) (hledger : o.ledger = o'.ledger) : o.Alike o' :=
  ⟨hskeleton, congrArg Ledger.depth hledger, congrArg (fun k => k.strays.length) hledger⟩

theorem step (h : o.Alike o') (ho : o.Covered) (ho' : o'.Covered) {s s' : Step} (hs : s.skeleton = s'.skeleton) :
    (o.step s).Alike (o'.step s') := by
  have hdepth : ∀ (o : Outline) (s : Step), (o.step s).depth = s.skeleton.count o.depth := by
    intro o s
    rw [Step.count_skeleton]
    exact (congrArg Ledger.depth (ledger_step o s)).trans (Ledger.depth_step _ _)
  have hstrays : ∀ (o : Outline) (s : Step), (o.step s).strayCloses.length =
      o.strayCloses.length + (s.skeleton.stray o.depth).length := by
    intro o s
    rw [Step.length_stray_skeleton, ← List.length_append]
    exact congrArg List.length ((congrArg Ledger.strays (ledger_step o s)).trans (Ledger.strays_step _ _))
  constructor
  · rw [skeleton_step ho, skeleton_step ho', h.skeleton_eq, hs]
  · rw [hdepth, hdepth, h.depth_eq, hs]
  · rw [hstrays, hstrays, h.depth_eq, h.strayCloses_eq, hs]

theorem foldl (h : o.Alike o') (ho : o.Covered) (ho' : o'.Covered) {steps steps' : List Step}
    (hsteps : steps.map Step.skeleton = steps'.map Step.skeleton) :
    (steps.foldl Outline.step o).Alike (steps'.foldl Outline.step o') := by
  induction steps generalizing o o' steps' with
  | nil =>
      obtain rfl := List.map_eq_nil_iff.mp hsteps.symm
      exact h
  | cons s rest ih =>
      obtain ⟨s', rest', rfl, hs, hrest⟩ := List.map_eq_cons_iff.mp hsteps.symm
      exact ih (h.step ho ho' hs.symm) (ho.step s) (ho'.step s') hrest.symm

end Alike

/-- Passes over the same steps at other positions end alike. -/
theorem alike_after {steps steps' : List Step} (h : steps.map Step.skeleton = steps'.map Step.skeleton) :
    (after steps).Alike (after steps') :=
  Alike.rfl.foldl (covered_after []) (covered_after []) h

end Outline
end SchemaDiagram
