import SchemaDiagram.Proofs.Source.Pass
import SchemaDiagram.Proofs.Source.Strings
import SchemaDiagram.Proofs.Text.Blank

/-! # Strings of statements

The pass over a text cuts its lines at braces, drops blanks around the pieces and glues the lines of a
triple-quoted string together. No string is cut or ended by that: the automaton of strings finds every
brace of a statement in a string, and stands in a triple-quoted string behind the last statement whenever
the text goes on with one.
-/
namespace SchemaDiagram

/-! ## Blanks -/

namespace StringState

variable {w : StringState} {t : Text}

theorem run_trimStart (t : Text) : outside.run (Text.trimStart t) = outside.run t := by
  obtain ⟨blanks, hblanks, ht⟩ := Text.exists_trimStart_eq t
  have hrun := run_outside fun c hc => isQuote_of_isBlank (hblanks c hc)
  rw [← congrArg (run outside) ht, run_append, hrun]

theorem isTriple_of_step {c : Char} (hc : c ≠ '\'') (h : (w.step c).IsTriple) : w.IsTriple := by
  have henter : ¬(enter c).IsTriple := by
    rw [enter, if_neg hc]
    split <;> exact id
  cases w with
  | outside => exact (henter h).elim
  | paired =>
      rw [step, if_neg hc] at h
      exact (henter h).elim
  | opened =>
      rw [step, if_neg hc] at h
      split at h <;> exact h.elim
  | quoted quote =>
      rw [step] at h
      split at h
      · exact h.elim
      · split at h <;> exact h.elim
  | escaped => exact h.elim
  | triple => trivial

theorem isTriple_of_run (ht : ∀ c ∈ t, c ≠ '\'') (h : (w.run t).IsTriple) : w.IsTriple := by
  induction t generalizing w with
  | nil => exact h
  | cons c rest ih =>
      exact isTriple_of_step (ht c List.mem_cons_self) (ih (fun d hd => ht d (List.mem_cons_of_mem c hd)) h)

theorem isTriple_run_trimEnd (h : (w.run t).IsTriple) : (w.run (Text.trimEnd t)).IsTriple := by
  obtain ⟨blanks, hblanks, ht⟩ := Text.exists_trimEnd_eq t
  rw [← ht, run_append] at h
  refine isTriple_of_run ?_ h
  rintro c hc rfl
  exact Bool.false_ne_true (hblanks _ hc)

end StringState

namespace Text

variable {w : StringState} {t : Text}

theorem Guarded.trimStart (h : Guarded .outside t) : Guarded .outside (trimStart t) := by
  obtain ⟨blanks, hblanks, ht⟩ := exists_trimStart_eq t
  rw [← ht, guarded_append, StringState.run_outside fun c hc => isQuote_of_isBlank (hblanks c hc)] at h
  exact h.2

theorem Guarded.trimEnd (h : Guarded w t) : Guarded w (trimEnd t) := by
  obtain ⟨blanks, -, ht⟩ := exists_trimEnd_eq t
  rw [← ht, guarded_append] at h
  exact h.1

end Text

/-! ## The events of a line -/

def Event.IsBrace : Event → Prop
  | text _ _ => False
  | openBrace _ | closeBrace _ => True

/-- The automaton goes from `w` to `w'` over the events: braces stand outside strings and cut the text
between them into pieces that keep their own braces in strings. -/
inductive Sections : StringState → List Event → StringState → Prop
  | done {w} : Sections w [] w
  | text {w start content} (h : Text.Guarded w content) : Sections w [.text start content] (w.run content)
  | brace {w w' e events} (hw : w.IsOutside) (he : e.IsBrace) (h : Sections .outside events w') :
      Sections w (e :: events) w'
  | textBrace {w w' start content e events} (h : Text.Guarded w content) (hw : (w.run content).IsOutside)
      (he : e.IsBrace) (hevents : Sections .outside events w') :
      Sections w (.text start content :: e :: events) w'

theorem Follows.sections {w : StringState} {gs : List Glyph} (h : Follows w gs) (start : Nat) :
    Sections w (Event.ofGlyphs start gs) (w.run (gs.map Glyph.char)) := by
  induction gs generalizing w start with
  | nil => exact .done
  | cons g rest ih =>
      cases g with
      | openBrace =>
          have hstep := h.1.step_of_not_isQuote (c := '\x7b') rfl
          exact .brace h.1 trivial (hstep ▸ ih h.2 (start + 1))
      | closeBrace =>
          have hstep := h.1.step_of_not_isQuote (c := '\x7d') rfl
          exact .brace h.1 trivial (hstep ▸ ih h.2 (start + 1))
      | plain c =>
          have hrest := ih h.2 (start + c.utf8Size)
          simp only [Event.ofGlyphs, List.map_cons, Glyph.char, StringState.run_cons]
          generalize Event.ofGlyphs (start + c.utf8Size) rest = events at hrest
          generalize (w.step c).run (rest.map Glyph.char) = w' at hrest
          cases hrest with
          | done => exact .text ⟨h.1, trivial⟩
          | text hc => exact .text ⟨h.1, hc⟩
          | @brace _ _ e _ hw he hevents =>
              cases e with
              | text => exact he.elim
              | openBrace => exact .textBrace ⟨h.1, trivial⟩ hw trivial hevents
              | closeBrace => exact .textBrace ⟨h.1, trivial⟩ hw trivial hevents
          | textBrace hc hw he hevents => exact .textBrace ⟨h.1, hc⟩ hw he hevents

/-! ## Statements -/

namespace Outline

variable {o : Outline} {w w' : StringState}

/-- All statements keep their braces in strings. In a triple-quoted string, the last one ends in it. -/
structure Quoted (o : Outline) (w : StringState) : Prop where
  guarded : ∀ t ∈ o.texts, t.Guarded .outside
  unfinished : w.IsTriple → ∃ t, o.texts.getLast? = some t ∧ (StringState.outside.run t).IsTriple

theorem Quoted.statements_ne_nil (h : o.Quoted w) (hw : w.IsTriple) : o.statements ≠ [] := by
  obtain ⟨t, ht, -⟩ := h.unfinished hw
  intro hnil
  simp [texts, hnil] at ht

theorem texts_openBrace (o : Outline) (line column : Nat) : (o.openBrace line column).texts = o.texts := by
  rcases openBrace_cases o line column with ⟨header, -, -, hopen⟩ | ⟨kind, -, hopen⟩
  · rw [hopen, texts_push, texts_cutShortAt]
  · rw [hopen, texts_push]

theorem texts_appendToLast {init : List Text} {t : Text} (h : o.texts = init ++ [t]) (content : Text) :
    (o.appendToLast content).texts = init ++ [t ++ '\n' :: content.trimEnd] := by
  have hlast : o.statements.length - 1 = init.length := by
    have hlen := congrArg List.length h
    simp only [texts, List.length_map, List.length_append, List.length_singleton] at hlen
    omega
  have hmap := map_modify (g := Statement.text) (fun t => t ++ '\n' :: content.trimEnd)
    (f := fun s => { s with text := s.text ++ '\n' :: content.trimEnd }) (fun _ => rfl) o.statements init.length
  rw [texts, appendToLast, hlast, hmap, show o.statements.map Statement.text = init ++ [t] from h, modify_concat]

theorem Quoted.addText (h : o.Quoted .outside) (l : Line) (start : Nat) {content : Text}
    (hc : content.Guarded .outside) : (o.addText l start content).Quoted (StringState.outside.run content) := by
  have htriple : (StringState.outside.run content).IsTriple → (StringState.outside.run content.trim).IsTriple := by
    intro hrun
    rw [← StringState.run_trimStart] at hrun
    exact StringState.isTriple_run_trimEnd hrun
  rcases addText_cases o l start content with ⟨hnil, hadd⟩ | ⟨-, s, hs, -, -, hadd⟩
  · rw [hadd]
    refine ⟨h.guarded, fun hrun => ?_⟩
    have hrun := htriple hrun
    rw [hnil] at hrun
    exact hrun.elim
  · have htexts : (o.addText l start content).texts = o.texts ++ [content.trim] := by
      rw [hadd, ← hs]
      exact List.map_append
    refine ⟨fun t ht => ?_, fun hrun => ⟨content.trim, by rw [htexts, List.getLast?_concat], htriple hrun⟩⟩
    rw [htexts, List.mem_append, List.mem_singleton] at ht
    rcases ht with ht | rfl
    · exact h.guarded t ht
    · exact hc.trimStart.trimEnd

theorem Quoted.appendToLast (h : o.Quoted (.triple 0)) {content : Text} (hc : content.Guarded (.triple 0)) :
    (o.appendToLast content).Quoted ((StringState.triple 0).run content) := by
  obtain ⟨t, ht, htriple⟩ := h.unfinished trivial
  obtain ⟨init, hinit⟩ := List.getLast?_eq_some_iff.mp ht
  have htexts := texts_appendToLast hinit content
  -- a line feed takes the automaton to the state in which the next line of the string is read
  have hline : StringState.outside.run (t ++ ['\n']) = .triple 0 := by
    rw [StringState.run_append]
    generalize StringState.outside.run t = w at htriple
    cases w with
    | triple => rfl
    | _ => exact htriple.elim
  have hcut : t ++ '\n' :: content.trimEnd = (t ++ ['\n']) ++ content.trimEnd := by simp
  constructor
  · intro t' ht'
    rw [htexts, List.mem_append, List.mem_singleton] at ht'
    rcases ht' with ht' | rfl
    · exact h.guarded t' (by simp [hinit, ht'])
    · rw [hcut, Text.guarded_append, hline, Text.guarded_append]
      exact ⟨⟨h.guarded t (by simp [hinit]), nofun, trivial⟩, hc.trimEnd⟩
  · intro hrun
    rw [htexts]
    refine ⟨_, List.getLast?_concat, ?_⟩
    rw [hcut, StringState.run_append, hline]
    exact StringState.isTriple_run_trimEnd hrun

theorem Quoted.addBrace (h : o.Quoted w) {e : Event} (he : e.IsBrace) (l : Line) :
    (addEvent l o e).Quoted .outside := by
  have hquoted : ∀ o' : Outline, o'.texts = o.texts → o'.Quoted .outside := by
    intro o' htexts
    exact ⟨htexts ▸ h.guarded, False.elim⟩
  cases e with
  | text => exact he.elim
  | openBrace start => exact hquoted _ (texts_openBrace o _ _)
  | closeBrace start => exact hquoted _ (congrArg (List.map Statement.text) (closeBrace_frame o _ _).1)

/-- Where the pass goes on from a line start: with a new piece of text or with the last statement. -/
def Resumes (o : Outline) (w : StringState) : Prop :=
  o.continuing = false ∧ w = .outside ∨ o.continuing = true ∧ w = .triple 0

theorem Quoted.addTextEvent (h : o.Quoted w) (hw : o.Resumes w) (l : Line) (start : Nat) {content : Text}
    (hc : content.Guarded w) : (addEvent l o (.text start content)).Quoted (w.run content) := by
  rcases hw with ⟨hcont, rfl⟩ | ⟨hcont, rfl⟩
  · simp only [addEvent, hcont]
    exact h.addText l start hc
  · have hne : o.statements.isEmpty = false := List.isEmpty_eq_false_iff.mpr (h.statements_ne_nil trivial)
    simp only [addEvent, hcont, hne]
    exact h.appendToLast hc

theorem Quoted.addEvents {events : List Event} (hevents : Sections w events w') (h : o.Quoted w)
    (hw : o.Resumes w) (l : Line) : (events.foldl (addEvent l) o).Quoted w' := by
  induction hevents generalizing o with
  | done => exact h
  | text hc => exact h.addTextEvent hw l _ hc
  | brace _ he _ ih => exact ih (h.addBrace he l) (.inl ⟨continuing_addEvent l _ _, rfl⟩)
  | textBrace hc _ he _ ih =>
      exact ih ((h.addTextEvent hw l _ hc).addBrace he l) (.inl ⟨continuing_addEvent l _ _, rfl⟩)

end Outline

/-! ## Lines -/

/-- The state of the automaton at the start of a line. -/
def ScanState.lineStart : ScanState → StringState
  | tripleQuoted => .triple 0
  | code | blockComment | quoted _ => .outside

theorem ScanState.StartsLine.agrees {s : ScanState} (h : s.StartsLine) (t : Text) : Agrees s s.lineStart t := by
  cases s with
  | code => exact .code
  | blockComment => exact .comment
  | quoted => cases h
  | tripleQuoted => exact .triple

namespace Outline

variable {o : Outline} {s : ScanState}

theorem Quoted.endLine {e : ScanState} {w : StringState} (h : o.Quoted w) (ha : Agrees e w []) :
    o.Quoted e.endLine.lineStart := by
  refine ⟨h.guarded, fun htriple => h.unfinished ?_⟩
  cases ha with
  | triple | tripleOne | tripleTwo => trivial
  | _ => exact htriple.elim

theorem resumes_newLine (o : Outline) (s : ScanState) :
    ({ o with continuing := s = .tripleQuoted } : Outline).Resumes s.lineStart := by
  cases s with
  | tripleQuoted => exact .inr ⟨rfl, rfl⟩
  | _ => exact .inl ⟨rfl, rfl⟩

theorem Quoted.addLine (h : o.Quoted s.lineStart) (hs : s.StartsLine) (number : Nat) (raw : Text) :
    (o.addLine ⟨number, s = .tripleQuoted, (scanChars s raw).1⟩).Quoted (scanChars s raw).2.endLine.lineStart := by
  obtain ⟨hfollows, hend⟩ := (scans_scanChars s raw).follows (hs.agrees raw)
  have hquoted : ({ o with continuing := s = .tripleQuoted } : Outline).Quoted s.lineStart :=
    ⟨h.guarded, h.unfinished⟩
  exact (hquoted.addEvents (hfollows.sections 0) (resumes_newLine o s) _).endLine hend

theorem Quoted.addLines (h : o.Quoted s.lineStart) (hs : s.StartsLine) (number : Nat) (raws : List Text) :
    ∀ t ∈ ((scanLines s number raws).foldl Outline.addLine o).texts, t.Guarded .outside := by
  induction raws generalizing o s number with
  | nil => exact h.guarded
  | cons raw rest ih =>
      exact ih (h.addLine hs number (dropReturn raw)) (ScanState.startsLine_endLine _) (number + 1)

theorem quoted_empty : empty.Quoted ScanState.code.lineStart := ⟨nofun, False.elim⟩

theorem guarded_of_mem_statements {text : Text} {s : Statement}
    (hs : s ∈ (Source.ofText text).outline.statements) : s.text.Guarded .outside :=
  quoted_empty.addLines rfl 1 text.lines s.text (List.mem_map_of_mem hs)

end Outline

/-- No token of a statement is a brace, and every brace of its text stands strictly inside a string. -/
theorem Statement.braces_in_strings {text : Text} {s : Statement}
    (hs : s ∈ (Source.ofText text).outline.statements) :
    (∀ x ∈ tokens s.text, x.token ≠ .other '\x7b' ∧ x.token ≠ .other '\x7d') ∧
    ∀ before c after, s.text = before ++ c :: after → c = '\x7b' ∨ c = '\x7d' →
      ∃ x ∈ tokens s.text, x.token.IsString ∧ x.start < Text.bytes before ∧ Text.bytes before < x.stop := by
  have h := holdsBraces_of_guarded .code (Outline.guarded_of_mem_statements hs) 0
  refine ⟨fun x hx => ⟨fun hopen => ?_, fun hclose => ?_⟩, fun before c after ht hc => ?_⟩
  · exact h.other x hx _ hopen (.inl rfl)
  · exact h.other x hx _ hclose (.inr rfl)
  · have hheld := h.held before c after ht hc
    rw [Nat.zero_add] at hheld
    exact hheld

/-- A note over two lines that starts with four apostrophes, with marks of comments in strings, an escaped
quote and a string without its end. -/
def unrulyNote : Text :=
  "Table t \x7b\n  Note: ''''\x7b // \x7d\n   \x7d /* '' ''' \"\\\"\x7d\" \x60\x7b\x60 /* \x7b */ 'it\\'s \x7d\n\x7d\n".toList

/-- The note of `unrulyNote` in front of its last brace. -/
def noteText : Text :=
  "Note: ''''\x7b // \x7d\n   \x7d /* '' ''' \"\\\"\x7d\" \x60\x7b\x60         'it\\'s ".toList

def noteStatement : Statement := ⟨2, noteText ++ ['\x7d'], 3, 19, .table 0, none⟩

theorem Statement.braces_in_strings_unrulyNote :
    noteStatement ∈ (Source.ofText unrulyNote).outline.statements ∧
    (∀ x ∈ tokens noteStatement.text, x.token ≠ .other '\x7b' ∧ x.token ≠ .other '\x7d') ∧
    ∃ x ∈ tokens noteStatement.text, x.token.IsString ∧ x.start < noteText.bytes ∧ noteText.bytes < x.stop :=
  have hmem : noteStatement ∈ (Source.ofText unrulyNote).outline.statements := by decide +kernel
  have h := Statement.braces_in_strings hmem
  ⟨hmem, h.1, h.2 noteText '\x7d' [] rfl (.inr rfl)⟩

end SchemaDiagram
