import SchemaDiagram.Proofs.Source.Quoting

/-! # The pass, read character by character

The automaton of strings goes along with the pass: over the pieces of text between braces, and over the start
of every line, where it stands in a triple-quoted string or outside all strings. At each place it knows what
the pass relies on there: whether a line goes on with a string, that a brace is outside all strings, and where
the next piece of text belongs.
-/
namespace SchemaDiagram

/-- The state of the automaton behind a step. -/
def StringState.over (w : StringState) : Step → StringState
  | .newLine l => if l.continuesString then triple 0 else outside
  | .event _ (.text _ content) => w.run content
  | .event _ (.openBrace _) | .event _ (.closeBrace _) => outside

/-- The state of the automaton behind some steps. -/
def reading (steps : List Step) : StringState := steps.foldl StringState.over .outside

theorem reading_concat (steps : List Step) (s : Step) : reading (steps ++ [s]) = (reading steps).over s := by
  rw [reading, List.foldl_append]
  rfl

theorem StringState.over_brace {w : StringState} {e : Event} (he : e.IsBrace) (l : Line) :
    w.over (.event l e) = .outside := by
  cases e with
  | text => exact he.elim
  | openBrace => rfl
  | closeBrace => rfl

/-- The next step is what the automaton says it is. -/
def Fits (steps : List Step) : Step → Prop
  | .newLine l => l.continuesString = true ↔ (reading steps).IsTriple
  | .event _ (.text _ _) => (Outline.after steps).Resumes (reading steps)
  | .event _ (.openBrace _) | .event _ (.closeBrace _) => (reading steps).IsOutside

theorem fits_brace {steps : List Step} {e : Event} (he : e.IsBrace) (l : Line) :
    Fits steps (.event l e) ↔ (reading steps).IsOutside := by
  cases e with
  | text => exact he.elim
  | openBrace => rfl
  | closeBrace => rfl

/-- The steps of a pass that the automaton goes along with. -/
inductive Read : List Step → Prop
  | nil : Read []
  | concat {steps s} (h : Read steps) (hs : Fits steps s) : Read (steps ++ [s])

namespace Read

variable {steps more : List Step} {s : Step}

theorem of_concat (h : Read (steps ++ [s])) : Read steps ∧ Fits steps s := by
  generalize hall : steps ++ [s] = all at h
  cases h with
  | nil => simp at hall
  | concat h hs =>
      obtain ⟨rfl, hlast⟩ := List.append_inj' hall rfl
      cases hlast
      exact ⟨h, hs⟩

theorem of_append (h : Read (steps ++ more)) : Read steps := by
  induction more using List.reverseRecOn with
  | nil => rwa [List.append_nil] at h
  | append_singleton more s ih =>
      rw [← List.append_assoc] at h
      exact ih h.of_concat.1

theorem fits (h : Read (steps ++ s :: more)) : Fits steps s := by
  rw [List.append_cons] at h
  exact h.of_append.of_concat.2

theorem addBrace (h : Read steps) (hw : (reading steps).IsOutside) {e : Event} (he : e.IsBrace) (l : Line) :
    Read (steps ++ [.event l e]) ∧ (Outline.after (steps ++ [.event l e])).Resumes .outside ∧
      reading (steps ++ [.event l e]) = .outside := by
  refine ⟨.concat h ((fits_brace he l).mpr hw), ?_, ?_⟩
  · rw [Outline.after_concat]
    exact .inl ⟨Outline.continuing_addEvent l _ e, rfl⟩
  · rw [reading_concat, StringState.over_brace he]

theorem addEvents {w w' : StringState} {events : List Event} (hevents : Sections w events w') (h : Read steps)
    (hw : reading steps = w) (hresumes : (Outline.after steps).Resumes w) (l : Line) :
    Read (steps ++ events.map (.event l)) ∧ reading (steps ++ events.map (.event l)) = w' := by
  induction hevents generalizing steps with
  | done =>
      rw [List.map_nil, List.append_nil]
      exact ⟨h, hw⟩
  | @text w start content =>
      subst hw
      exact ⟨.concat h hresumes, reading_concat _ _⟩
  | brace houtside he _ ih =>
      subst hw
      obtain ⟨hread, hnext, hreading⟩ := h.addBrace houtside he l
      rw [List.map_cons, List.append_cons]
      exact ih hread hreading hnext
  | @textBrace w _ start content _ _ _ houtside he _ ih =>
      subst hw
      have htext : Read (steps ++ [.event l (.text start content)]) := .concat h hresumes
      obtain ⟨hread, hnext, hreading⟩ := htext.addBrace (by rwa [reading_concat]) he l
      rw [List.map_cons, List.append_cons, List.map_cons, List.append_cons]
      exact ih hread hreading hnext

end Read

theorem Agrees.endLine_eq_tripleQuoted {e : ScanState} {w : StringState} (h : Agrees e w []) :
    e.endLine = .tripleQuoted ↔ w.IsTriple := by
  cases h <;> simp [ScanState.endLine, StringState.IsTriple]

theorem Read.addLine {steps : List Step} {s : ScanState} (h : Read steps) (hs : s.StartsLine)
    (hw : s = .tripleQuoted ↔ (reading steps).IsTriple) (number : Nat) (raw : Text) :
    Read (steps ++ Line.steps ⟨number, s = .tripleQuoted, (scanChars s raw).1⟩) ∧
      ((scanChars s raw).2.endLine = .tripleQuoted ↔
        (reading (steps ++ Line.steps ⟨number, s = .tripleQuoted, (scanChars s raw).1⟩)).IsTriple) := by
  obtain ⟨hfollows, hend⟩ := (scans_scanChars s raw).follows (hs.agrees raw)
  generalize hl : (⟨number, s = .tripleQuoted, (scanChars s raw).1⟩ : Line) = l
  have hcontinues : l.continuesString = true ↔ s = .tripleQuoted := by simp [← hl]
  have hstart : Read (steps ++ [.newLine l]) := .concat h (hcontinues.trans hw)
  have hreading : reading (steps ++ [.newLine l]) = s.lineStart := by
    rw [reading_concat, ← hl]
    cases s <;> rfl
  have hresumes : (Outline.after (steps ++ [.newLine l])).Resumes s.lineStart := by
    rw [Outline.after_concat, ← hl]
    exact Outline.resumes_newLine _ s
  obtain ⟨hread, hstate⟩ := hstart.addEvents (hfollows.sections 0) hreading hresumes l
  rw [Line.steps, List.append_cons, show l.events = Event.ofGlyphs 0 (scanChars s raw).1 by rw [← hl]; rfl, hstate]
  exact ⟨hread, hend.endLine_eq_tripleQuoted⟩

theorem Read.addLines {steps : List Step} {s : ScanState} (h : Read steps) (hs : s.StartsLine)
    (hw : s = .tripleQuoted ↔ (reading steps).IsTriple) (number : Nat) (raws : List Text) :
    Read (steps ++ (scanLines s number raws).flatMap Line.steps) := by
  induction raws generalizing steps s number with
  | nil => simpa [scanLines] using h
  | cons raw rest ih =>
      obtain ⟨hread, hstate⟩ := h.addLine hs hw number (dropReturn raw)
      rw [scanLines, List.flatMap_cons, ← List.append_assoc]
      exact ih hread (ScanState.startsLine_endLine _) hstate (number + 1)

/-- The automaton goes along with the pass over any text. -/
theorem read_steps (t : Text) : Read t.steps := by
  have h := Read.nil.addLines (s := .code) rfl (by simp [reading, StringState.IsTriple]) 1 t.lines
  rwa [List.nil_append] at h

/-! ## Where a string begins -/

/-- Three apostrophes begin and end a string that may run over several lines. -/
def tripleMark : Text := List.replicate 3 '\''

namespace StringState

/-- Behind its beginning and `inside`, a triple-quoted string goes on; the last `n` apostrophes may be the
first ones of its end. -/
structure StaysOpen (n : Nat) (inside : Text) : Prop where
  few : n ≤ 2
  unended : ¬tripleMark <:+: inside
  last : ¬List.replicate (n + 1) '\'' <:+ inside

theorem StaysOpen.nil : StaysOpen 0 [] := ⟨by decide, by decide, by decide⟩

theorem replicate_suffix_concat {n : Nat} {c : Char} {t : Text} :
    List.replicate (n + 1) c <:+ t ++ [c] ↔ List.replicate n c <:+ t := by
  rw [List.replicate_succ', List.suffix_concat_iff]
  simp

theorem not_replicate_suffix_concat {n : Nat} {c d : Char} (h : c ≠ d) (t : Text) :
    ¬List.replicate (n + 1) d <:+ t ++ [c] := by
  rw [List.replicate_succ', List.suffix_concat_iff]
  simp [h.symm]

variable {n : Nat} {t : Text} {w w' : StringState} {c : Char}

theorem StaysOpen.apostrophe (h : StaysOpen n t) (hn : n ≠ 2) : StaysOpen (n + 1) (t ++ ['\'']) := by
  have hfew := h.few
  refine ⟨by omega, fun hmark => ?_, fun hlast => h.last (replicate_suffix_concat.mp hlast)⟩
  rcases List.infix_concat_iff.mp hmark with hsuffix | hinfix
  · have hshort : List.replicate (n + 1) '\'' <:+ List.replicate 2 '\'' :=
      ⟨List.replicate (1 - n) '\'', by rw [← List.replicate_add]; congr 1; omega⟩
    exact h.last (hshort.trans (replicate_suffix_concat.mp hsuffix))
  · exact h.unended hinfix

theorem StaysOpen.other (h : StaysOpen n t) (hc : c ≠ '\'') : StaysOpen 0 (t ++ [c]) := by
  refine ⟨by decide, fun hmark => ?_, not_replicate_suffix_concat hc t⟩
  rcases List.infix_concat_iff.mp hmark with hsuffix | hinfix
  · exact not_replicate_suffix_concat hc t hsuffix
  · exact h.unended hinfix

/-- How the automaton has come from `w` to its state over the text, as far as apostrophes have part in it. -/
def Traced (w : StringState) (t : Text) : StringState → Prop
  | outside | quoted _ | escaped _ => True
  | opened => ∃ lead, t = lead ++ ['\''] ∧ w.run lead = outside
  | paired => ∃ lead, t = lead ++ ['\'', '\''] ∧ w.run lead = outside
  | triple n => (w = triple 0 ∧ StaysOpen n t) ∨
      ∃ lead inside, t = lead ++ tripleMark ++ inside ∧ w.run lead = outside ∧ StaysOpen n inside

theorem traced_enter (hc : c ≠ '\'') (t : Text) : Traced w t (enter c) := by
  rw [enter, if_neg hc]
  split <;> trivial

theorem Traced.step (h : Traced w t w') (hw : w.run t = w') (c : Char) : Traced w (t ++ [c]) (w'.step c) := by
  cases w' with
  | outside =>
      by_cases hc : c = '\''
      · subst hc
        exact ⟨t, rfl, hw⟩
      · exact traced_enter hc _
  | opened =>
      obtain ⟨lead, rfl, hlead⟩ := h
      rw [StringState.step]
      split
      · next hc =>
          subst hc
          exact ⟨lead, by simp, hlead⟩
      · split <;> trivial
  | paired =>
      obtain ⟨lead, rfl, hlead⟩ := h
      rw [StringState.step]
      split
      · next hc =>
          subst hc
          exact .inr ⟨lead, [], by simp [tripleMark, List.replicate], hlead, .nil⟩
      · next hc => exact traced_enter hc _
  | quoted quote =>
      rw [StringState.step]
      split
      · trivial
      · split <;> trivial
  | escaped quote => trivial
  | triple n =>
      rw [StringState.step]
      split
      · next hc =>
          subst hc
          split
          · trivial
          · next hn =>
              rcases h with ⟨hstart, hopen⟩ | ⟨lead, inside, rfl, hlead, hopen⟩
              · exact .inl ⟨hstart, hopen.apostrophe hn⟩
              · exact .inr ⟨lead, inside ++ ['\''], by simp, hlead, hopen.apostrophe hn⟩
      · next hc =>
          rcases h with ⟨hstart, hopen⟩ | ⟨lead, inside, rfl, hlead, hopen⟩
          · exact .inl ⟨hstart, hopen.other hc⟩
          · exact .inr ⟨lead, inside ++ [c], by simp, hlead, hopen.other hc⟩

theorem traced_run (hw : w = outside ∨ w = triple 0) (t : Text) : Traced w t (w.run t) := by
  induction t using List.reverseRecOn with
  | nil =>
      rcases hw with rfl | rfl
      · trivial
      · exact .inl ⟨rfl, .nil⟩
  | append_singleton t c ih =>
      rw [run_append, run_cons, run_nil]
      exact ih.step rfl c

/-- A text that ends in a triple-quoted string either lies in it or has its beginning. -/
theorem exists_beginning (hw : w = outside ∨ w = triple 0) {t : Text} (h : (w.run t).IsTriple) :
    (w = triple 0 ∧ ¬tripleMark <:+: t) ∨
    ∃ lead inside, t = lead ++ tripleMark ++ inside ∧ w.run lead = outside ∧ ¬tripleMark <:+: inside := by
  have htraced := traced_run hw t
  generalize w.run t = w' at h htraced
  cases w' with
  | triple n =>
      rcases htraced with ⟨hstart, hopen⟩ | ⟨lead, inside, ht, hlead, hopen⟩
      · exact .inl ⟨hstart, hopen.unended⟩
      · exact .inr ⟨lead, inside, ht, hlead, hopen.unended⟩
  | _ => exact h.elim

end StringState

end SchemaDiagram
