import SchemaDiagram.Check.Validation
import SchemaDiagram.Schema.Extract
import SchemaDiagram.Proofs.Source.Scan
import SchemaDiagram.Proofs.Text.Cut

/-! # Comments

The code of a text has blanks in place of comments. It is read as the text is: blanks begin no string and
no comment, so that every look ahead meets what it met in the text, or a blank.
-/
namespace SchemaDiagram

/-! ## Code in place of a text -/

/-- `code` is the front of a text with blanks in place of some of its characters. -/
inductive Blanked : Text → Text → Prop
  | done {t} : Blanked [] t
  | keep {code t c} (h : Blanked code t) : Blanked (c :: code) (c :: t)
  | blank {code t c} (h : Blanked code t) : Blanked (' ' :: code) (c :: t)

namespace Blanked

variable {code t : Text}

theorem head?_ne (h : Blanked code t) {c : Char} (hc : c ≠ ' ') (ht : t.head? ≠ some c) : code.head? ≠ some c := by
  cases h with
  | done => exact nofun
  | keep => exact ht
  | blank =>
      rintro ⟨⟩
      exact hc rfl

theorem not_startsPair (h : Blanked code t) (ht : ¬StartsPair t) : ¬StartsPair code := by
  rintro ⟨rest, rfl⟩
  cases h with
  | keep h =>
      cases h with
      | keep => exact ht ⟨_, rfl⟩

theorem eq_nil (h : Blanked code []) : code = [] := by
  cases h
  rfl

theorem not_mem (h : Blanked code t) {c : Char} (hc : c ≠ ' ') (ht : c ∉ t) : c ∉ code := by
  induction h with
  | done => exact List.not_mem_nil
  | keep _ ih =>
      rw [List.mem_cons, not_or] at ht ⊢
      exact ⟨ht.1, ih ht.2⟩
  | blank _ ih =>
      rw [List.mem_cons, not_or] at ht ⊢
      exact ⟨hc, ih ht.2⟩

end Blanked

variable {s e : ScanState} {t : Text} {gs : List Glyph}

theorem Scans.blanked (h : Scans s t gs e) : Blanked (gs.map Glyph.char) t := by
  induction h with
  | done => exact .done
  | lineComment => exact .done
  | openComment _ ih => exact ih.blank.blank
  | closeComment _ ih => exact ih.blank.blank
  | comment _ _ ih => exact ih.blank
  | openTriple _ ih => exact ih.keep.keep.keep
  | closeTriple _ ih => exact ih.keep.keep.keep
  | escape _ ih => exact ih.keep.keep
  | _ => exact Blanked.keep ‹_›

/-- Where a comment was, there is code. -/
def ScanState.withoutComment : ScanState → ScanState
  | blockComment => code
  | s => s

theorem Scans.blank (h : Scans .code t gs e) : Scans .code (' ' :: t) (.plain ' ' :: gs) e :=
  .plain (by decide) rfl nofun h

/-- Code is read as what it is the code of. -/
theorem Scans.code (h : Scans s t gs e) : Scans s.withoutComment (gs.map Glyph.char) gs e.withoutComment := by
  induction h with
  | done => exact .done
  | lineComment => exact .done
  | openComment _ ih => exact ih.blank.blank
  | closeComment _ ih => exact ih.blank.blank
  | comment _ _ ih => exact ih.blank
  | openTriple _ ih => exact .openTriple ih
  | closeTriple _ ih => exact .closeTriple ih
  | triple hc h ih => exact .triple (fun hq => h.blanked.not_startsPair (hc hq)) ih
  | openQuote hq hc h ih => exact .openQuote hq (fun hq => h.blanked.not_startsPair (hc hq)) ih
  | closeQuote hlast h ih =>
      refine .closeQuote (fun hq => ?_) ih
      have hb := h.blanked
      rw [hlast hq] at hb
      exact hb.eq_nil
  | escape _ ih => exact .escape ih
  | quoted hlast hq h ih =>
      refine .quoted (fun hc => ?_) hq ih
      have hb := h.blanked
      rw [hlast hc] at hb
      exact hb.eq_nil
  | openBrace _ ih => exact .openBrace ih
  | closeBrace _ ih => exact .closeBrace ih
  | plain hb hq hc h ih =>
      refine .plain hb hq (fun hslash => ⟨?_, ?_⟩) ih
      · exact h.blanked.head?_ne (by decide) (hc hslash).1
      · exact h.blanked.head?_ne (by decide) (hc hslash).2

/-! ## Code in place of the lines of a text -/

theorem dropReturn_of_not_mem {raw : Text} (h : '\r' ∉ raw) : dropReturn raw = raw := by
  rw [dropReturn]
  split
  · next hlast => exact absurd (List.mem_of_getLast? hlast) h
  · rfl

theorem blanked_of_mem_scanLines {raws : List Text} {number : Nat} {l : Line} (hreturn : ∀ raw ∈ raws, '\r' ∉ raw)
    (h : l ∈ scanLines s number raws) : ∃ raw ∈ raws, Blanked l.code raw := by
  induction raws generalizing s number with
  | nil => cases h
  | cons raw rest ih =>
      rcases List.mem_cons.mp h with rfl | h
      · refine ⟨raw, List.mem_cons_self, ?_⟩
        rw [dropReturn_of_not_mem (hreturn raw List.mem_cons_self)]
        exact (scans_scanChars s raw).blanked
      · obtain ⟨raw', hmem, hb⟩ := ih (fun raw' hmem => hreturn raw' (List.mem_cons_of_mem _ hmem)) h
        exact ⟨raw', List.mem_cons_of_mem _ hmem, hb⟩

theorem scanLines_code {raws : List Text} (hreturn : ∀ raw ∈ raws, '\r' ∉ raw) (s : ScanState) (number : Nat) :
    scanLines s.withoutComment number ((scanLines s number raws).map Line.code) = scanLines s number raws := by
  induction raws generalizing s number with
  | nil => rfl
  | cons raw rest ih =>
      have hraw := hreturn raw List.mem_cons_self
      have hscan := scans_scanChars s raw
      have hcode := hscan.blanked.not_mem (by decide) hraw
      have hstring : decide (s.withoutComment = .tripleQuoted) = decide (s = .tripleQuoted) := by
        cases s <;> rfl
      have hend : ∀ e : ScanState, e.withoutComment.endLine = e.endLine.withoutComment := by
        intro e
        cases e <;> rfl
      have hrest := ih (fun raw' hmem => hreturn raw' (List.mem_cons_of_mem _ hmem)) (scanChars s raw).2.endLine
        (number + 1)
      simp only [scanLines, List.map_cons, Line.code, dropReturn_of_not_mem hraw, dropReturn_of_not_mem hcode,
        hscan.code.eq_scanChars, hstring, hend]
      exact congrArg (_ :: ·) hrest

namespace Text

/-- The code of the text, line by line. -/
def withoutComments (t : Text) : Text := joinWith '\n' ((scan t).map Line.code)

/-- A text without carriage returns has the lines of its code, and so the same problems in the same places
and the same schema. -/
theorem scan_withoutComments {t : Text} (h : '\r' ∉ t) :
    scan t.withoutComments = scan t ∧ validate t.withoutComments = validate t ∧
      Schema.ofText t.withoutComments = Schema.ofText t := by
  have hreturn : ∀ raw ∈ t.lines, '\r' ∉ raw := fun raw hraw hmem => h (mem_of_mem_lines hraw hmem).1
  have hlines : t.withoutComments.lines = (scan t).map Line.code := by
    refine lines_joinWith (fun hnil => ?_) fun line hline hmem => ?_
    · have hlength := length_scanLines .code 1 t.lines
      rw [← scan, List.map_eq_nil_iff.mp hnil] at hlength
      exact t.lines_ne_nil (List.length_eq_zero_iff.mp hlength.symm)
    · obtain ⟨l, hl, rfl⟩ := List.mem_map.mp hline
      obtain ⟨raw, hraw, hb⟩ := blanked_of_mem_scanLines hreturn hl
      exact hb.not_mem (by decide) (fun hfeed => (mem_of_mem_lines hraw hfeed).2 rfl) hmem
  have hscan : scan t.withoutComments = scan t := by
    rw [scan, hlines]
    exact scanLines_code hreturn .code 1
  refine ⟨hscan, ?_, ?_⟩
  · rw [validate, Source.ofText, hscan]
    rfl
  · rw [Schema.ofText, Source.ofText, hscan]
    rfl

/-- Comments of both kinds with quotes and braces in them, and strings with marks of comments in them. -/
def commented : Text :=
  "Table t \x7b // it's a \x7b\n id int /* ''' \x7d\n \" */ [note: '/* \x7b']\n Note: '''/* \x7d\n // ''' /**/\n\x7d// '".toList

theorem scan_withoutComments_commented :
    '\r' ∉ commented ∧
    commented.withoutComments =
      "Table t \x7b \n id int         \n      [note: '/* \x7b']\n Note: '''/* \x7d\n // '''     \n\x7d".toList ∧
    scan commented.withoutComments = scan commented ∧ validate commented.withoutComments = validate commented ∧
    Schema.ofText commented.withoutComments = Schema.ofText commented := by
  have hreturn : '\r' ∉ commented := by decide
  exact ⟨hreturn, by decide +kernel, scan_withoutComments hreturn⟩

end Text
end SchemaDiagram
