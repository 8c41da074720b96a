import SchemaDiagram.Proofs.Access.Line
import SchemaDiagram.Proofs.Source.Balance
import SchemaDiagram.Proofs.Source.Comment

/-! # Places in a text

Columns are counted in the code of a line, which has no more characters than the line itself. A statement
keeps its place while the pass goes on: lines that are appended to it later do not change its first one. So
the first line of every statement, and every stray brace, is a part of the code of a line of the text.
-/
namespace SchemaDiagram

/-! ## Lines -/

theorem Blanked.length_le {code t : Text} (h : Blanked code t) : code.length ≤ t.length := by
  induction h with
  | done => exact Nat.zero_le _
  | keep _ ih | blank _ ih => exact Nat.succ_le_succ ih

theorem exists_raw_of_mem_scanLines {s : ScanState} {number : Nat} {raws : List Text} {l : Line}
    (h : l ∈ scanLines s number raws) : ∃ raw, raws[l.number - number]? = some raw ∧ Blanked l.code (dropReturn raw) := by
  induction raws generalizing s number with
  | nil => cases h
  | cons raw rest ih =>
      rw [scanLines_cons] at h
      rcases List.mem_cons.mp h with rfl | h
      · exact ⟨raw, by simp, (scans_scanChars s (dropReturn raw)).blanked⟩
      · obtain ⟨raw', hraw, hb⟩ := ih h
        have hbounds := number_of_mem_scanLines h
        have hindex : l.number - number = l.number - (number + 1) + 1 := by omega
        exact ⟨raw', by rw [hindex, List.getElem?_cons_succ, hraw], hb⟩

/-- The line of the text that a line of code comes from. -/
theorem exists_raw_of_mem_scan {t : Text} {l : Line} (h : l ∈ scan t) :
    1 ≤ l.number ∧ ∃ raw, t.lines[l.number - 1]? = some raw ∧ Blanked l.code (dropReturn raw) :=
  ⟨(number_of_mem_scanLines h).1, exists_raw_of_mem_scanLines h⟩

theorem not_mem_dropReturn {raw : Text} {c : Char} (h : c ∉ raw) : c ∉ dropReturn raw := by
  rcases dropReturn_eq raw with hdrop | hdrop
  · rwa [hdrop]
  · exact fun hc => h (hdrop ▸ List.mem_append_left _ hc)

theorem lineFeed_not_mem_code {t : Text} {l : Line} (h : l ∈ scan t) : '\n' ∉ l.code := by
  obtain ⟨-, raw, hraw, hb⟩ := exists_raw_of_mem_scan h
  refine hb.not_mem (by decide) (not_mem_dropReturn fun hc => ?_)
  exact (Text.mem_of_mem_lines (List.mem_of_getElem? hraw) hc).2 rfl

/-! ## First lines -/

namespace Text

theorem firstLine_of_not_mem {t : Text} (h : '\n' ∉ t) : t.firstLine = t := by
  rw [firstLine, List.takeWhile_eq_self_iff]
  intro c hc
  exact decide_eq_true fun heq => h (heq ▸ hc)

theorem firstLine_append_feed (t more : Text) : firstLine (t ++ '\n' :: more) = t.firstLine := by
  induction t with
  | nil => rfl
  | cons c t ih =>
      rw [firstLine, firstLine, List.cons_append, List.takeWhile_cons, List.takeWhile_cons]
      split
      · exact congrArg (c :: ·) ih
      · rfl

end Text

/-! ## Places of statements -/

/-- The first line of a statement, and where it stands. -/
structure Place where
  line : Nat
  column : Nat
  endColumn : Nat
  text : Text

def Statement.place (s : Statement) : Place := ⟨s.line, s.column, s.endColumn, s.text.firstLine⟩

/-- The place of a statement that a run of text from byte `start` of the line makes. -/
def Line.placeOf (l : Line) (start : Nat) (content : Text) : Place :=
  let first := start + (content.bytes - content.trimStart.bytes)
  ⟨l.number, l.column first, l.column (first + content.trim.bytes), content.trim.firstLine⟩

namespace Outline

variable {o : Outline}

def places (o : Outline) : List Place := o.statements.map Statement.place

theorem places_openBrace (o : Outline) (line column : Nat) : (o.openBrace line column).places = o.places := by
  have hpush : ∀ (o : Outline) kind header, (o.push kind header line column).places = o.places :=
    fun o kind header => map_statements_push (fun _ _ => rfl) kind header line column
  have hcut : ∀ header, (o.cutShortAt header).places = o.places := by
    intro header
    apply map_modify_of_eq
    exact fun _ => rfl
  rcases openBrace_cases o line column with ⟨header, -, -, hopen⟩ | ⟨kind, -, hopen⟩
  · rw [hopen, hpush, hcut]
  · rw [hopen, hpush]

theorem places_appendToLast (o : Outline) (content : Text) : (o.appendToLast content).places = o.places := by
  apply map_modify_of_eq
  intro s
  rw [Statement.place, Statement.place, Text.firstLine_append_feed]

/-- A step keeps all places; one that adds a statement puts it behind them. -/
theorem places_step (o : Outline) (s : Step) : (o.step s).places = o.places ∨
    ∃ l start content, s = .event l (.text start content) ∧ content.trim ≠ [] ∧
      (o.step s).places = o.places ++ [l.placeOf start content] := by
  cases s with
  | newLine l => exact .inl rfl
  | event l e =>
      cases e with
      | openBrace start => exact .inl (places_openBrace o _ _)
      | closeBrace start =>
          exact .inl (congrArg (List.map Statement.place) (closeBrace_frame o l.number (l.column start)).1)
      | text start content =>
          simp only [step, addEvent]
          split
          · exact .inl (places_appendToLast o content)
          · by_cases hempty : content.trim = []
            · exact .inl (by simp [addText, hempty, places])
            · refine .inr ⟨l, start, content, rfl, hempty, ?_⟩
              simp [addText, hempty, places, Statement.place, Line.placeOf]

end Outline

/-! ## Places on lines -/

/-- The text stands in the code of the line at its columns, and starts with a character that is no blank. -/
structure Place.On (p : Place) (l : Line) : Prop where
  line_eq : p.line = l.number
  exists_code : ∃ before after, l.code = before ++ (p.text ++ after) ∧ p.column = before.length + 1
  endColumn_eq : p.endColumn = p.column + p.text.length
  exists_head : ∃ c, p.text.head? = some c ∧ Text.isBlank c = false

theorem Place.On.endColumn_le {p : Place} {l : Line} (h : p.On l) : p.endColumn ≤ l.code.length + 1 := by
  obtain ⟨before, after, hcode, hcolumn⟩ := h.exists_code
  rw [h.endColumn_eq, hcolumn, hcode, List.length_append, List.length_append]
  omega

theorem Text.exists_head_trim {t : Text} (h : trim t ≠ []) : ∃ c, (trim t).head? = some c ∧ isBlank c = false := by
  obtain ⟨blanks, -, heq⟩ := exists_trimEnd_eq (trimStart t)
  cases ht : trim t with
  | nil => exact absurd ht h
  | cons c rest =>
      have hhead := List.head?_dropWhile_not isBlank t
      rw [show t.dropWhile isBlank = c :: (rest ++ blanks) from heq.symm.trans (congrArg (· ++ blanks) ht)] at hhead
      exact ⟨c, rfl, by simpa using hhead⟩

theorem Line.placeOf_on {l : Line} (hl : '\n' ∉ l.code) {start : Nat} {content : Text}
    (he : .text start content ∈ l.events) (hc : content.trim ≠ []) : (l.placeOf start content).On l := by
  obtain ⟨before, after, hcode, hstart⟩ := Access.exists_around_of_mem_events he
  obtain ⟨front, back, hcontent, hbytes⟩ := Text.exists_trim_eq content
  have hhead := Text.exists_head_trim hc
  simp only [Line.placeOf]
  generalize content.trim = text at hcontent hhead
  have hcut : l.code = (before ++ front) ++ (text ++ (back ++ after)) := by
    simp [hcode, Event.content, hcontent]
  have hfirst : text.firstLine = text :=
    Text.firstLine_of_not_mem fun hfeed => hl (by simp [hcut, hfeed])
  have hfrom : start + (content.bytes - content.trimStart.bytes) = Text.bytes (before ++ front) := by
    rw [Text.bytes_append, ← hstart, Event.start]
    omega
  have hcolumn : l.column (Text.bytes (before ++ front)) = (before ++ front).length + 1 := by
    rw [Line.column, hcut, Text.takeBytes_bytes_append]
  have hbehind : l.column (Text.bytes (before ++ front) + text.bytes) = (before ++ front ++ text).length + 1 := by
    rw [Line.column, hcut, ← Text.bytes_append, ← List.append_assoc _ text, Text.takeBytes_bytes_append]
  rw [hfrom, hcolumn, hbehind, hfirst]
  refine ⟨rfl, ⟨before ++ front, back ++ after, hcut, rfl⟩, ?_, hhead⟩
  simp only [List.length_append]
  omega

/-! ## The pass -/

theorem Outline.places_on {lines : List Line} (hlines : ∀ l ∈ lines, '\n' ∉ l.code) :
    ∀ p ∈ (ofLines lines).places, ∃ l ∈ lines, p.On l := by
  rw [ofLines_eq_after]
  refine after_induction_of_mem (P := fun o => ∀ p ∈ o.places, ∃ l ∈ lines, p.On l) ?_ fun o s hs ho => ?_
  · exact fun p hp => absurd hp List.not_mem_nil
  rcases places_step o s with hkept | ⟨l, start, content, rfl, hc, hadded⟩
  · rwa [hkept]
  · obtain ⟨hl, he⟩ := Step.mem_flatMap_steps.mp hs
    rw [hadded]
    intro p hp
    rcases List.mem_append.mp hp with hp | hp
    · exact ho p hp
    · obtain rfl := List.mem_singleton.mp hp
      exact ⟨l, hl, Line.placeOf_on (hlines l hl) he hc⟩

/-- Every statement stands on a line of the text. -/
theorem Statement.exists_on {t : Text} {s : Statement} (hs : s ∈ (Source.ofText t).outline.statements) :
    ∃ l ∈ scan t, s.place.On l :=
  Outline.places_on (fun _ hl => lineFeed_not_mem_code hl) s.place (List.mem_map_of_mem hs)

/-! ## Stray braces -/

theorem Step.exists_of_mem_strays {steps : List Step} {depth : Nat} {c : StrayClose} (h : c ∈ strays depth steps) :
    ∃ l start, event l (.closeBrace start) ∈ steps ∧ c = ⟨l.number, l.column start⟩ := by
  induction steps generalizing depth with
  | nil => cases h
  | cons s rest ih =>
      rw [strays, List.mem_append] at h
      rcases h with h | h
      · cases s with
        | newLine l => cases h
        | event l e =>
            cases e with
            | text | openBrace => cases h
            | closeBrace start =>
                simp only [stray] at h
                split at h
                · exact ⟨l, start, List.mem_cons_self, List.mem_singleton.mp h⟩
                · cases h
      · obtain ⟨l, start, hmem, hc⟩ := ih h
        exact ⟨l, start, List.mem_cons_of_mem s hmem, hc⟩

/-- A stray brace is a character of a line of the text. -/
theorem StrayClose.exists_on {t : Text} {c : StrayClose} (h : c ∈ (Source.ofText t).outline.strayCloses) :
    ∃ l ∈ scan t, c.line = l.number ∧
      ∃ before after, l.code = before ++ '\x7d' :: after ∧ c.column = before.length + 1 := by
  rw [Outline.outline_ofText, Outline.strayCloses_after] at h
  obtain ⟨l, start, hmem, rfl⟩ := Step.exists_of_mem_strays h
  obtain ⟨hl, he⟩ := Step.mem_flatMap_steps.mp hmem
  obtain ⟨before, after, hcode, hstart⟩ := Access.exists_around_of_mem_events he
  refine ⟨l, hl, rfl, before, after, hcode, ?_⟩
  rw [show start = Text.bytes before from hstart, Line.column, hcode, Text.takeBytes_bytes_append]

end SchemaDiagram
