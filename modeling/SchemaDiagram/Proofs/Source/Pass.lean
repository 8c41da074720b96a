import SchemaDiagram.Proofs.Source.Body

/-! # The pass over a text

The outline of a text is found step by step, one step for the start of every line and one for every
event. What holds before the first step and is kept by every step holds wherever the pass stands.
-/
namespace SchemaDiagram

inductive Step
  | newLine (l : Line)
  | event (l : Line) (e : Event)
  deriving DecidableEq

def Line.steps (l : Line) : List Step := .newLine l :: l.events.map (.event l)

/-- Everything the pass over a text meets, in order. -/
def Text.steps (t : Text) : List Step := (scan t).flatMap Line.steps

namespace Outline

def step (o : Outline) : Step → Outline
  | .newLine l => { o with continuing := l.continuesString }
  | .event l e => addEvent l o e

/-- What is known of the structure after some steps. -/
def after (steps : List Step) : Outline := steps.foldl step empty

theorem after_append (steps more : List Step) : after (steps ++ more) = more.foldl step (after steps) :=
  List.foldl_append

theorem after_concat (steps : List Step) (s : Step) : after (steps ++ [s]) = (after steps).step s :=
  after_append steps [s]

theorem foldl_steps (l : Line) (o : Outline) : l.steps.foldl step o = o.addLine l := by
  rw [Line.steps, List.foldl_cons, List.foldl_map]
  rfl

theorem ofLines_eq_after (lines : List Line) : ofLines lines = after (lines.flatMap Line.steps) := by
  rw [ofLines, after]
  generalize empty = o
  induction lines generalizing o with
  | nil => rfl
  | cons l rest ih => rw [List.flatMap_cons, List.foldl_append, foldl_steps, List.foldl_cons, ih]

theorem outline_ofText (t : Text) : (Source.ofText t).outline = after t.steps := ofLines_eq_after (scan t)

/-- What holds at first and is kept by each of some steps holds after these steps. -/
theorem after_induction_of_mem {P : Outline → Prop} {steps : List Step} (hempty : P empty)
    (hstep : ∀ o, ∀ s ∈ steps, P o → P (o.step s)) : P (after steps) :=
  List.foldlRecOn steps step hempty fun o ho s hs => hstep o s hs ho

/-- What holds at first and is kept by every step holds after all steps. -/
theorem after_induction {P : Outline → Prop} (hempty : P empty) (hstep : ∀ o s, P o → P (o.step s))
    (steps : List Step) : P (after steps) :=
  after_induction_of_mem hempty fun o s _ => hstep o s

theorem Consistent.step {o : Outline} (h : o.Consistent) (s : Step) : (o.step s).Consistent := by
  cases s with
  | newLine l => exact h.setContinuing l.continuesString
  | event l e => exact h.addEvent l e

theorem consistent_after (steps : List Step) : (after steps).Consistent :=
  after_induction consistent_empty (fun _ s h => h.step s) steps

/-! ## What the steps change -/

variable {o : Outline}

def texts (o : Outline) : List Text := o.statements.map Statement.text

def opens (o : Outline) : List (Option Nat) := o.statements.map Statement.opens

def headers (o : Outline) : List (Option Nat) := o.blocks.map Block.header

def addStatement (o : Outline) (s : Statement) : Outline :=
  { o with
    statements := o.statements ++ [s]
    blocks := match o.context.body? with
      | some block => o.blocks.modify block fun b => { b with body := b.body ++ [o.statements.length] }
      | none => o.blocks
    pending := some o.statements.length
    continuing := false }

/-- A run of text is blank or a new statement in the innermost open block. -/
theorem addText_cases (o : Outline) (l : Line) (start : Nat) (content : Text) :
    (content.trim = [] ∧ o.addText l start content = { o with continuing := false }) ∨
    content.trim ≠ [] ∧ ∃ s, s.text = content.trim ∧ s.context = o.context ∧ s.opens = none ∧
      o.addText l start content = o.addStatement s := by
  simp only [addText]
  split
  · next h => exact .inl ⟨List.isEmpty_iff.mp h, rfl⟩
  · next h => exact .inr ⟨fun hnil => h (List.isEmpty_iff.mpr hnil), _, rfl, rfl, rfl, rfl⟩

theorem map_blocks_addStatement {β : Type} {g : Block → β} (hg : ∀ b body, g { b with body } = g b) (s : Statement) :
    (o.addStatement s).blocks.map g = o.blocks.map g := by
  rw [addStatement]
  split
  · apply map_modify_of_eq
    exact fun b => hg b _
  · rfl

theorem kinds_addStatement (s : Statement) : (o.addStatement s).kinds = o.kinds :=
  map_blocks_addStatement (fun _ _ => rfl) s

theorem headers_addStatement (s : Statement) : (o.addStatement s).headers = o.headers :=
  map_blocks_addStatement (fun _ _ => rfl) s

theorem kinds_push (kind : BlockKind) (header : Option Nat) (line column : Nat) :
    (o.push kind header line column).kinds = o.kinds ++ [kind] := by
  simp [push, kinds]

theorem headers_push (kind : BlockKind) (header : Option Nat) (line column : Nat) :
    (o.push kind header line column).headers = o.headers ++ [header] := by
  simp [push, headers]

theorem opens_push_some (kind : BlockKind) (header line column : Nat) :
    (o.push kind (some header) line column).opens = o.opens.modify header fun _ => some o.blocks.length :=
  map_modify (g := Statement.opens) (fun _ => some o.blocks.length) (fun _ => by rfl) o.statements header

theorem map_statements_push {β : Type} {g : Statement → β} (hg : ∀ s opens, g { s with opens } = g s)
    (kind : BlockKind) (header : Option Nat) (line column : Nat) :
    (o.push kind header line column).statements.map g = o.statements.map g := by
  cases header with
  | none => rfl
  | some h =>
      apply map_modify_of_eq
      exact fun s => hg s _

theorem contexts_push (kind : BlockKind) (header : Option Nat) (line column : Nat) :
    (o.push kind header line column).contexts = o.contexts :=
  map_statements_push (fun _ _ => rfl) kind header line column

theorem texts_push (kind : BlockKind) (header : Option Nat) (line column : Nat) :
    (o.push kind header line column).texts = o.texts :=
  map_statements_push (fun _ _ => rfl) kind header line column

theorem map_blocks_cutShortAt {β : Type} {g : Block → β} (hg : ∀ b body, g { b with body } = g b) (header : Nat) :
    (o.cutShortAt header).blocks.map g = o.blocks.map g := by
  rw [cutShortAt]
  split
  · rfl
  · apply map_modify_of_eq
    intro b
    split
    · exact hg b _
    · rfl

theorem kinds_cutShortAt (header : Nat) : (o.cutShortAt header).kinds = o.kinds :=
  map_blocks_cutShortAt (fun _ _ => rfl) header

theorem headers_cutShortAt (header : Nat) : (o.cutShortAt header).headers = o.headers :=
  map_blocks_cutShortAt (fun _ _ => rfl) header

theorem opens_cutShortAt (header : Nat) : (o.cutShortAt header).opens = o.opens := by
  apply map_modify_of_eq
  exact fun _ => rfl

theorem texts_cutShortAt (header : Nat) : (o.cutShortAt header).texts = o.texts := by
  apply map_modify_of_eq
  exact fun _ => rfl

theorem contexts_cutShortAt (header : Nat) :
    (o.cutShortAt header).contexts = o.contexts.modify header fun _ => .topLevel :=
  map_modify (g := Statement.context) (fun _ => Context.topLevel) (fun _ => by rfl) o.statements header

/-- A closing brace takes at most the innermost block off the stack and changes no block but for closing
it. -/
theorem closeBrace_frame (o : Outline) (line column : Nat) :
    (o.closeBrace line column).statements = o.statements ∧ (o.closeBrace line column).kinds = o.kinds ∧
    (o.closeBrace line column).headers = o.headers ∧ (o.closeBrace line column).pending = none ∧
    (o.closeBrace line column).continuing = false ∧
    ((o.closeBrace line column).stack = o.stack ∨ (o.closeBrace line column).stack = o.stack.tail) := by
  have hclose : ∀ (o' : Outline) (i : Nat), (o'.close i).kinds = o'.kinds ∧ (o'.close i).headers = o'.headers := by
    intro o' i
    constructor
    · apply map_modify_of_eq
      exact fun _ => rfl
    · apply map_modify_of_eq
      exact fun _ => rfl
  simp only [closeBrace]
  split
  · exact ⟨rfl, rfl, rfl, rfl, rfl, .inl rfl⟩
  · split
    · next top rest hstack =>
        exact ⟨rfl, (hclose _ _).1, (hclose _ _).2, rfl, rfl, .inr (congrArg List.tail hstack.symm)⟩
    · exact ⟨rfl, (hclose _ _).1, (hclose _ _).2, rfl, rfl, .inl rfl⟩
    · exact ⟨rfl, rfl, rfl, rfl, rfl, .inl rfl⟩

/-- What a step does. -/
theorem step_cases (o : Outline) (s : Step) :
    (∃ continuing, o.step s = { o with continuing }) ∨
    (∃ content, o.step s = o.appendToLast content) ∨
    (∃ added, added.context = o.context ∧ added.opens = none ∧ o.step s = o.addStatement added) ∨
    (∃ line column, o.step s = o.openBrace line column) ∨
    ∃ line column, o.step s = o.closeBrace line column := by
  cases s with
  | newLine l => exact .inl ⟨l.continuesString, rfl⟩
  | event l e =>
      cases e with
      | openBrace start => exact .inr (.inr (.inr (.inl ⟨_, _, rfl⟩)))
      | closeBrace start => exact .inr (.inr (.inr (.inr ⟨_, _, rfl⟩)))
      | text start content =>
          simp only [step, addEvent]
          split
          · exact .inr (.inl ⟨content, rfl⟩)
          · rcases addText_cases o l start content with ⟨-, hadd⟩ | ⟨-, added, -, hcontext, hopens, hadd⟩
            · exact .inl ⟨false, hadd⟩
            · exact .inr (.inr (.inl ⟨added, hcontext, hopens, hadd⟩))

theorem continuing_openBrace (o : Outline) (line column : Nat) : (o.openBrace line column).continuing = false := by
  rcases openBrace_cases o line column with ⟨header, -, -, hopen⟩ | ⟨kind, -, hopen⟩
  · rw [hopen]
    rfl
  · rw [hopen]
    rfl

/-- Only the start of a line says that the next text goes on with a string. -/
theorem continuing_addEvent (l : Line) (o : Outline) (e : Event) : (addEvent l o e).continuing = false := by
  cases e with
  | text start content =>
      simp only [addEvent]
      split
      · rfl
      · rcases addText_cases o l start content with ⟨-, hadd⟩ | ⟨-, s, -, -, -, hadd⟩
        · rw [hadd]
        · rw [hadd]
          rfl
  | openBrace start => exact continuing_openBrace o _ _
  | closeBrace start => exact (closeBrace_frame o _ _).2.2.2.2.1

end Outline
end SchemaDiagram
