import SchemaDiagram.Proofs.Source.Place
import SchemaDiagram.Proofs.Source.Quoting

/-! # Statements over several lines

The pass appends a line to a statement only where the text goes on with a triple-quoted string. So the first
line of a statement that has more than one ends inside such a string.
-/
namespace SchemaDiagram
namespace Outline

variable {o : Outline} {w w' : StringState}

/-- Whatever goes on behind its first line does so inside a triple-quoted string. -/
def Torn (o : Outline) : Prop := ∀ t ∈ o.texts, '\n' ∈ t → (StringState.outside.run t.firstLine).IsTriple

theorem Torn.addText (h : o.Torn) (l : Line) (start : Nat) {content : Text} (hc : '\n' ∉ content) :
    (o.addText l start content).Torn := by
  rcases addText_cases o l start content with ⟨-, hadd⟩ | ⟨-, s, hs, -, -, hadd⟩
  · rw [hadd]
    exact h
  · have htexts : (o.addText l start content).texts = o.texts ++ [content.trim] := by
      rw [hadd, ← hs]
      exact List.map_append
    intro t ht hfeed
    rw [htexts, List.mem_append, List.mem_singleton] at ht
    rcases ht with ht | rfl
    · exact h t ht hfeed
    · obtain ⟨front, back, hcontent, -⟩ := Text.exists_trim_eq content
      exact absurd (by rw [hcontent]; simp [hfeed]) hc

theorem Torn.appendToLast (h : o.Torn) (hq : o.Quoted (.triple 0)) (content : Text) :
    (o.appendToLast content).Torn := by
  obtain ⟨t, ht, htriple⟩ := hq.unfinished trivial
  obtain ⟨init, hinit⟩ := List.getLast?_eq_some_iff.mp ht
  intro t' ht' hfeed
  rw [texts_appendToLast hinit, List.mem_append, List.mem_singleton] at ht'
  rcases ht' with ht' | rfl
  · exact h t' (by simp [hinit, ht']) hfeed
  · rw [Text.firstLine_append_feed]
    by_cases hlines : '\n' ∈ t
    · exact h t (by simp [hinit]) hlines
    · rwa [Text.firstLine_of_not_mem hlines]

theorem Torn.addBrace (h : o.Torn) {e : Event} (he : e.IsBrace) (l : Line) : (addEvent l o e).Torn := by
  have htorn : ∀ o' : Outline, o'.texts = o.texts → o'.Torn := fun o' htexts t ht => h t (htexts ▸ ht)
  cases e with
  | text => exact he.elim
  | openBrace start => exact htorn _ (texts_openBrace o _ _)
  | closeBrace start => exact htorn _ (congrArg (List.map Statement.text) (closeBrace_frame o _ _).1)

theorem Torn.addTextEvent (h : o.Torn) (hq : o.Quoted w) (hw : o.Resumes w) (l : Line) (start : Nat)
    {content : Text} (hc : '\n' ∉ content) : (addEvent l o (.text start content)).Torn := by
  rcases hw with ⟨hcont, rfl⟩ | ⟨hcont, rfl⟩
  · simp only [addEvent, hcont]
    exact h.addText l start hc
  · have hne : o.statements.isEmpty = false := List.isEmpty_eq_false_iff.mpr (hq.statements_ne_nil trivial)
    simp only [addEvent, hcont, hne]
    exact h.appendToLast hq content

theorem Torn.addEvents {events : List Event} (hevents : Sections w events w')
    (hfeed : ∀ e ∈ events, '\n' ∉ e.content) (h : o.Torn) (hq : o.Quoted w) (hw : o.Resumes w) (l : Line) :
    (events.foldl (addEvent l) o).Torn := by
  induction hevents generalizing o with
  | done => exact h
  | text hc => exact h.addTextEvent hq hw l _ (hfeed (.text _ _) List.mem_cons_self)
  | brace _ he _ ih =>
      exact ih (fun e he => hfeed e (by simp [he])) (h.addBrace he l) (hq.addBrace he l)
        (.inl ⟨continuing_addEvent l _ _, rfl⟩)
  | @textBrace _ _ start content _ _ hc _ he _ ih =>
      have htext := h.addTextEvent hq hw l start (hfeed (.text start content) List.mem_cons_self)
      exact ih (fun e he => hfeed e (by simp [he])) (htext.addBrace he l) ((hq.addTextEvent hw l _ hc).addBrace he l)
        (.inl ⟨continuing_addEvent l _ _, rfl⟩)

variable {s : ScanState}

theorem Torn.addLine (h : o.Torn) (hq : o.Quoted s.lineStart) (hs : s.StartsLine) (number : Nat) {raw : Text}
    (hraw : '\n' ∉ raw) : (o.addLine ⟨number, s = .tripleQuoted, (scanChars s raw).1⟩).Torn := by
  obtain ⟨hfollows, -⟩ := (scans_scanChars s raw).follows (hs.agrees raw)
  have hquoted : ({ o with continuing := s = .tripleQuoted } : Outline).Quoted s.lineStart :=
    ⟨hq.guarded, hq.unfinished⟩
  have htorn : ({ o with continuing := s = .tripleQuoted } : Outline).Torn := h
  refine htorn.addEvents (hfollows.sections 0) (fun e he hc => ?_) hquoted (resumes_newLine o s) _
  have hcode : '\n' ∈ (scanChars s raw).1.map Glyph.char := by
    rw [← Event.flatMap_content_ofGlyphs 0, List.mem_flatMap]
    exact ⟨e, he, hc⟩
  exact (scans_scanChars s raw).blanked.not_mem (by decide) hraw hcode

theorem Torn.addLines (h : o.Torn) (hq : o.Quoted s.lineStart) (hs : s.StartsLine) (number : Nat) {raws : List Text}
    (hraws : ∀ raw ∈ raws, '\n' ∉ raw) : ((scanLines s number raws).foldl Outline.addLine o).Torn := by
  induction raws generalizing o s number with
  | nil => exact h
  | cons raw rest ih =>
      have hraw := not_mem_dropReturn (hraws raw List.mem_cons_self)
      exact ih (h.addLine hq hs number hraw) (hq.addLine hs number (dropReturn raw)) (ScanState.startsLine_endLine _)
        (number + 1) fun raw hmem => hraws raw (List.mem_cons_of_mem _ hmem)

end Outline

/-- A statement of several lines goes on inside a triple-quoted string. -/
theorem Statement.isTriple_firstLine {text : Text} {s : Statement}
    (hs : s ∈ (Source.ofText text).outline.statements) (hfeed : '\n' ∈ s.text) :
    (StringState.outside.run s.text.firstLine).IsTriple := by
  have hempty : Outline.empty.Torn := nofun
  have hlines : ∀ raw ∈ text.lines, '\n' ∉ raw := fun raw hraw hc => (Text.mem_of_mem_lines hraw hc).2 rfl
  exact hempty.addLines Outline.quoted_empty rfl 1 hlines s.text (List.mem_map_of_mem hs) hfeed

end SchemaDiagram
