import SchemaDiagram.Source.Line

/-! # Reading the characters of a line

The reader of lines as a relation, with one rule for everything it does at a character. A rule that
takes one character says what the characters behind it are not.
-/
namespace SchemaDiagram

/-- Two apostrophes more would make three. -/
def StartsPair (t : Text) : Prop := ∃ rest, t = '\'' :: '\'' :: rest

inductive Scans : ScanState → Text → List Glyph → ScanState → Prop
  | done {s} : Scans s [] [] s
  | lineComment {rest} : Scans .code ('/' :: '/' :: rest) [] .code
  | openComment {rest gs e} (h : Scans .blockComment rest gs e) :
      Scans .code ('/' :: '*' :: rest) (.plain ' ' :: .plain ' ' :: gs) e
  | closeComment {rest gs e} (h : Scans .code rest gs e) :
      Scans .blockComment ('*' :: '/' :: rest) (.plain ' ' :: .plain ' ' :: gs) e
  | comment {c rest gs e} (hc : c = '*' → rest.head? ≠ some '/') (h : Scans .blockComment rest gs e) :
      Scans .blockComment (c :: rest) (.plain ' ' :: gs) e
  | openTriple {rest gs e} (h : Scans .tripleQuoted rest gs e) :
      Scans .code ('\'' :: '\'' :: '\'' :: rest) (.plain '\'' :: .plain '\'' :: .plain '\'' :: gs) e
  | closeTriple {rest gs e} (h : Scans .code rest gs e) :
      Scans .tripleQuoted ('\'' :: '\'' :: '\'' :: rest) (.plain '\'' :: .plain '\'' :: .plain '\'' :: gs) e
  | triple {c rest gs e} (hc : c = '\'' → ¬StartsPair rest) (h : Scans .tripleQuoted rest gs e) :
      Scans .tripleQuoted (c :: rest) (.plain c :: gs) e
  | openQuote {c rest gs e} (hq : isQuote c = true) (hc : c = '\'' → ¬StartsPair rest)
      (h : Scans (.quoted c) rest gs e) : Scans .code (c :: rest) (.plain c :: gs) e
  | closeQuote {quote rest gs e} (hlast : quote = '\\' → rest = []) (h : Scans .code rest gs e) :
      Scans (.quoted quote) (quote :: rest) (.plain quote :: gs) e
  | escape {quote c rest gs e} (h : Scans (.quoted quote) rest gs e) :
      Scans (.quoted quote) ('\\' :: c :: rest) (.plain '\\' :: .plain c :: gs) e
  | quoted {quote c rest gs e} (hlast : c = '\\' → rest = []) (hq : c ≠ quote)
      (h : Scans (.quoted quote) rest gs e) : Scans (.quoted quote) (c :: rest) (.plain c :: gs) e
  | openBrace {rest gs e} (h : Scans .code rest gs e) : Scans .code ('\x7b' :: rest) (.openBrace :: gs) e
  | closeBrace {rest gs e} (h : Scans .code rest gs e) : Scans .code ('\x7d' :: rest) (.closeBrace :: gs) e
  | plain {c rest gs e} (hb : c ≠ '\x7b' ∧ c ≠ '\x7d') (hq : isQuote c = false)
      (hc : c = '/' → rest.head? ≠ some '/' ∧ rest.head? ≠ some '*') (h : Scans .code rest gs e) :
      Scans .code (c :: rest) (.plain c :: gs) e

variable {e : ScanState} {rest : Text} {gs : List Glyph} {c : Char}

theorem scans_code_char {next : ScanState} {g : Glyph}
    (hline : c = '/' → rest.head? ≠ some '/' ∧ rest.head? ≠ some '*') (htriple : c = '\'' → ¬StartsPair rest)
    (hread : scanCodeChar c = (g, next)) (h : Scans next rest gs e) : Scans .code (c :: rest) (g :: gs) e := by
  rw [scanCodeChar] at hread
  split at hread
  · next hc =>
      cases hread
      exact hc ▸ .openBrace h
  · next hopen =>
      split at hread
      · next hc =>
          cases hread
          exact hc ▸ .closeBrace h
      · next hclose =>
          cases hread
          split at h
          · next hq => exact .openQuote hq htriple h
          · next hq => exact .plain ⟨hopen, hclose⟩ (by simpa using hq) hline h

theorem scans_scanChars (s : ScanState) (t : Text) : Scans s t (scanChars s t).1 (scanChars s t).2 := by
  have hhead : ∀ {t : Text} {d : Char}, (∀ rest, t = d :: rest → False) → t.head? ≠ some d := by
    intro t d h hd
    cases t with
    | nil => cases hd
    | cons d' rest => exact h rest (by cases hd; rfl)
  fun_induction scanChars s t with
  | case1 => exact .done
  | case2 rest gs e heq ih =>
      rw [heq] at ih
      exact .closeComment ih
  | case3 c rest hc gs e heq ih =>
      rw [heq] at ih
      exact .comment (fun h => hhead fun rest' => hc rest' h) ih
  | case4 quote c rest gs e heq ih =>
      rw [heq] at ih
      exact .escape ih
  | case5 quote c rest hc gs e heq ih =>
      rw [heq] at ih
      have hlast : c = '\\' → rest = [] := by
        intro h
        cases rest with
        | nil => rfl
        | cons d rest => exact (hc d rest h rfl).elim
      split at ih
      · next hq =>
          subst hq
          exact .closeQuote hlast ih
      · next hq => exact .quoted hlast hq ih
  | case6 rest gs e heq ih =>
      rw [heq] at ih
      exact .closeTriple ih
  | case7 c rest hc gs e heq ih =>
      rw [heq] at ih
      exact .triple (fun h ⟨rest', hr⟩ => hc rest' h hr) ih
  | case8 => exact .lineComment
  | case9 rest gs e heq ih =>
      rw [heq] at ih
      exact .openComment ih
  | case10 rest gs e heq ih =>
      rw [heq] at ih
      exact .openTriple ih
  | case11 c rest hline hblock htriple g next hread gs e heq ih =>
      rw [heq] at ih
      refine scans_code_char (fun h => ⟨?_, ?_⟩) (fun h ⟨rest', hr⟩ => htriple rest' h hr) hread ih
      · exact hhead fun rest' => hline rest' h
      · exact hhead fun rest' => hblock rest' h

theorem scanChars_code_char {c : Char} {rest : Text} {g : Glyph} {gs : List Glyph} {next e : ScanState}
    (hline : c = '/' → rest.head? ≠ some '/' ∧ rest.head? ≠ some '*') (htriple : c = '\'' → ¬StartsPair rest)
    (hread : scanCodeChar c = (g, next)) (h : scanChars next rest = (gs, e)) :
    scanChars .code (c :: rest) = (g :: gs, e) := by
  rw [scanChars, hread]
  · simp only [h]
  · rintro rest' hc rfl
    exact (hline hc).1 rfl
  · rintro rest' hc rfl
    exact (hline hc).2 rfl
  · rintro rest' hc rfl
    exact htriple hc ⟨rest', rfl⟩

/-- The rules are what the reader does. -/
theorem Scans.eq_scanChars {s e : ScanState} {t : Text} {gs : List Glyph} (h : Scans s t gs e) :
    scanChars s t = (gs, e) := by
  induction h with
  | @done s => cases s <;> rfl
  | lineComment => rfl
  | openComment _ ih => rw [scanChars, ih]
  | closeComment _ ih => rw [scanChars, ih]
  | comment hc _ ih =>
      rw [scanChars, ih]
      rintro rest' h rfl
      exact hc h rfl
  | openTriple _ ih => rw [scanChars, ih]
  | closeTriple _ ih => rw [scanChars, ih]
  | triple hc _ ih =>
      rw [scanChars, ih]
      rintro rest' h rfl
      exact hc h ⟨_, rfl⟩
  | @openQuote c rest gs e hq hc _ ih =>
      refine scanChars_code_char ?_ hc ?_ ih
      · rintro rfl
        cases hq
      · rw [scanCodeChar, if_neg, if_neg, if_pos hq]
        all_goals
          rintro rfl
          cases hq
  | closeQuote hlast _ ih =>
      rw [scanChars, if_pos rfl, ih]
      rintro c rest' h rfl
      cases hlast h
  | escape _ ih => rw [scanChars, ih]
  | quoted hlast hq _ ih =>
      rw [scanChars, if_neg hq, ih]
      rintro c rest' h rfl
      cases hlast h
  | openBrace _ ih => exact scanChars_code_char nofun nofun rfl ih
  | closeBrace _ ih => exact scanChars_code_char nofun nofun rfl ih
  | plain hb hq hc _ ih =>
      refine scanChars_code_char hc ?_ ?_ ih
      · rintro rfl
        cases hq
      · rw [scanCodeChar, if_neg hb.1, if_neg hb.2, hq]
        rfl

theorem not_startsPair_of_append {a b : Text} (h : ¬StartsPair (a ++ b)) : ¬StartsPair a := by
  rintro ⟨rest, rfl⟩
  exact h ⟨rest ++ b, rfl⟩

theorem head?_ne_of_append {a b : Text} {c : Char} (h : (a ++ b).head? ≠ some c) : a.head? ≠ some c := by
  cases a with
  | nil => exact nofun
  | cons d a => exact h

theorem exists_of_cons_eq_append {α : Type} {a b : α} {l x y : List α} (h : a :: l = x ++ b :: y) (hne : a ≠ b) :
    ∃ x', x = a :: x' ∧ l = x' ++ b :: y := by
  rcases List.cons_eq_append_iff.mp h with ⟨-, hb⟩ | hx
  · cases hb
    exact (hne rfl).elim
  · exact hx

/-! ## Braces -/

inductive Brace
  | opening
  | closing
  deriving DecidableEq

namespace Brace

def char : Brace → Char
  | opening => '\x7b'
  | closing => '\x7d'

def glyph : Brace → Glyph
  | opening => .openBrace
  | closing => .closeBrace

def event : Brace → Nat → Event
  | opening => .openBrace
  | closing => .closeBrace

theorem char_ne_return (k : Brace) : k.char ≠ '\r' := by
  cases k <;> decide

theorem char_ne_feed (k : Brace) : k.char ≠ '\n' := by
  cases k <;> decide

theorem start_event (k : Brace) (start : Nat) : (k.event start).start = start := by
  cases k <;> rfl

theorem plain_ne_glyph (c : Char) (k : Brace) : Glyph.plain c ≠ k.glyph := by
  cases k <;> exact nofun

end Brace

/-- What is read at a brace in code. -/
theorem Scans.brace (k : Brace) (h : Scans .code rest gs e) : Scans .code (k.char :: rest) (k.glyph :: gs) e := by
  cases k with
  | opening => exact .openBrace h
  | closing => exact .closeBrace h

theorem head?_append_cons (a b b' : Text) (c : Char) : (a ++ c :: b').head? = (a ++ c :: b).head? := by
  cases a <;> rfl

theorem not_startsPair_append_brace {a b : Text} {k : Brace} (h : ¬StartsPair (a ++ k.char :: b)) (b' : Text) :
    ¬StartsPair (a ++ k.char :: b') := by
  rintro ⟨rest, hrest⟩
  have hquote : k.char ≠ '\'' := by cases k <;> decide
  match a with
  | [] => exact hquote (List.cons.inj hrest).1
  | [x] => exact hquote (List.cons.inj (List.cons.inj hrest).2).1
  | x :: y :: a =>
      obtain ⟨rfl, hy⟩ := List.cons.inj hrest
      obtain ⟨rfl, -⟩ := List.cons.inj hy
      exact h ⟨a ++ k.char :: b, rfl⟩

/-- A brace stands outside strings and comments, and what is read on both sides is read apart: other text may stand
behind the brace, or none. -/
theorem Scans.split {s e : ScanState} {t : Text} {gs ga gb : List Glyph} (h : Scans s t gs e) {k : Brace}
    (hg : gs = ga ++ k.glyph :: gb) :
    ∃ a b, t = a ++ k.char :: b ∧ ga.length = a.length ∧ Scans s a ga .code ∧ Scans .code b gb e ∧
      ∀ {b' gb' e'}, Scans .code b' gb' e' → Scans s (a ++ k.char :: b') (ga ++ k.glyph :: gb') e' := by
  have hplain := Brace.plain_ne_glyph (k := k)
  -- every rule but that of the brace itself reads plain characters, or another brace, in front of it
  induction h generalizing ga with
  | done => cases List.append_eq_nil_iff.mp hg.symm |>.2
  | lineComment => cases List.append_eq_nil_iff.mp hg.symm |>.2
  | openComment _ ih =>
      obtain ⟨ga, rfl, hg1⟩ := exists_of_cons_eq_append hg (hplain _)
      obtain ⟨ga, rfl, hg2⟩ := exists_of_cons_eq_append hg1 (hplain _)
      obtain ⟨a, b, rfl, hlen, ha, hb, hmore⟩ := ih hg2
      exact ⟨'/' :: '*' :: a, b, rfl, by simp [hlen], .openComment ha, hb, fun h => .openComment (hmore h)⟩
  | closeComment _ ih =>
      obtain ⟨ga, rfl, hg1⟩ := exists_of_cons_eq_append hg (hplain _)
      obtain ⟨ga, rfl, hg2⟩ := exists_of_cons_eq_append hg1 (hplain _)
      obtain ⟨a, b, rfl, hlen, ha, hb, hmore⟩ := ih hg2
      exact ⟨'*' :: '/' :: a, b, rfl, by simp [hlen], .closeComment ha, hb, fun h => .closeComment (hmore h)⟩
  | comment hc _ ih =>
      obtain ⟨ga, rfl, hg1⟩ := exists_of_cons_eq_append hg (hplain _)
      obtain ⟨a, b, rfl, hlen, ha, hb, hmore⟩ := ih hg1
      exact ⟨_ :: a, b, rfl, by simp [hlen], .comment (fun h => head?_ne_of_append (hc h)) ha, hb,
        fun h => .comment (fun h => head?_append_cons a b _ _ ▸ hc h) (hmore h)⟩
  | openTriple _ ih =>
      obtain ⟨ga, rfl, hg1⟩ := exists_of_cons_eq_append hg (hplain _)
      obtain ⟨ga, rfl, hg2⟩ := exists_of_cons_eq_append hg1 (hplain _)
      obtain ⟨ga, rfl, hg3⟩ := exists_of_cons_eq_append hg2 (hplain _)
      obtain ⟨a, b, rfl, hlen, ha, hb, hmore⟩ := ih hg3
      exact ⟨'\'' :: '\'' :: '\'' :: a, b, rfl, by simp [hlen], .openTriple ha, hb, fun h => .openTriple (hmore h)⟩
  | closeTriple _ ih =>
      obtain ⟨ga, rfl, hg1⟩ := exists_of_cons_eq_append hg (hplain _)
      obtain ⟨ga, rfl, hg2⟩ := exists_of_cons_eq_append hg1 (hplain _)
      obtain ⟨ga, rfl, hg3⟩ := exists_of_cons_eq_append hg2 (hplain _)
      obtain ⟨a, b, rfl, hlen, ha, hb, hmore⟩ := ih hg3
      exact ⟨'\'' :: '\'' :: '\'' :: a, b, rfl, by simp [hlen], .closeTriple ha, hb, fun h => .closeTriple (hmore h)⟩
  | triple hc _ ih =>
      obtain ⟨ga, rfl, hg1⟩ := exists_of_cons_eq_append hg (hplain _)
      obtain ⟨a, b, rfl, hlen, ha, hb, hmore⟩ := ih hg1
      exact ⟨_ :: a, b, rfl, by simp [hlen], .triple (fun h => not_startsPair_of_append (hc h)) ha, hb,
        fun h => .triple (fun h => not_startsPair_append_brace (hc h) _) (hmore h)⟩
  | openQuote hq hc _ ih =>
      obtain ⟨ga, rfl, hg1⟩ := exists_of_cons_eq_append hg (hplain _)
      obtain ⟨a, b, rfl, hlen, ha, hb, hmore⟩ := ih hg1
      exact ⟨_ :: a, b, rfl, by simp [hlen], .openQuote hq (fun h => not_startsPair_of_append (hc h)) ha, hb,
        fun h => .openQuote hq (fun h => not_startsPair_append_brace (hc h) _) (hmore h)⟩
  | closeQuote hlast _ ih =>
      obtain ⟨ga, rfl, hg1⟩ := exists_of_cons_eq_append hg (hplain _)
      obtain ⟨a, b, rfl, hlen, ha, hb, hmore⟩ := ih hg1
      exact ⟨_ :: a, b, rfl, by simp [hlen], .closeQuote (fun h => (List.append_eq_nil_iff.mp (hlast h)).1) ha, hb,
        fun h => .closeQuote (fun h => by simpa using hlast h) (hmore h)⟩
  | escape _ ih =>
      obtain ⟨ga, rfl, hg1⟩ := exists_of_cons_eq_append hg (hplain _)
      obtain ⟨ga, rfl, hg2⟩ := exists_of_cons_eq_append hg1 (hplain _)
      obtain ⟨a, b, rfl, hlen, ha, hb, hmore⟩ := ih hg2
      exact ⟨'\\' :: _ :: a, b, rfl, by simp [hlen], .escape ha, hb, fun h => .escape (hmore h)⟩
  | quoted hlast hq _ ih =>
      obtain ⟨ga, rfl, hg1⟩ := exists_of_cons_eq_append hg (hplain _)
      obtain ⟨a, b, rfl, hlen, ha, hb, hmore⟩ := ih hg1
      exact ⟨_ :: a, b, rfl, by simp [hlen], .quoted (fun h => (List.append_eq_nil_iff.mp (hlast h)).1) hq ha, hb,
        fun h => .quoted (fun h => by simpa using hlast h) hq (hmore h)⟩
  | openBrace h ih =>
      rcases List.cons_eq_append_iff.mp hg with ⟨rfl, hg⟩ | ⟨ga, rfl, hg'⟩
      · cases k <;> cases hg
        exact ⟨[], _, rfl, rfl, .done, h, .openBrace⟩
      · obtain ⟨a, b, rfl, hlen, ha, hb, hmore⟩ := ih hg'
        exact ⟨_ :: a, b, rfl, by simp [hlen], .openBrace ha, hb, fun h => .openBrace (hmore h)⟩
  | closeBrace h ih =>
      rcases List.cons_eq_append_iff.mp hg with ⟨rfl, hg⟩ | ⟨ga, rfl, hg'⟩
      · cases k <;> cases hg
        exact ⟨[], _, rfl, rfl, .done, h, .closeBrace⟩
      · obtain ⟨a, b, rfl, hlen, ha, hb, hmore⟩ := ih hg'
        exact ⟨_ :: a, b, rfl, by simp [hlen], .closeBrace ha, hb, fun h => .closeBrace (hmore h)⟩
  | plain hb hq hc _ ih =>
      obtain ⟨ga, rfl, hg1⟩ := exists_of_cons_eq_append hg (hplain _)
      obtain ⟨a, b, rfl, hlen, ha, hb', hmore⟩ := ih hg1
      refine ⟨_ :: a, b, rfl, by simp [hlen], .plain hb hq (fun h => ?_) ha, hb', fun h => ?_⟩
      · exact ⟨head?_ne_of_append (hc h).1, head?_ne_of_append (hc h).2⟩
      · exact .plain hb hq (fun h => head?_append_cons a b _ _ ▸ hc h) (hmore h)

/-- A carriage return at the end of what is read is a character of code. -/
theorem Scans.withoutReturn {s e : ScanState} {t x : Text} {gs : List Glyph} (h : Scans s t gs e) (he : e = .code)
    (hs : s ≠ .quoted '\r') (hlen : gs.length = t.length) (ht : t = x ++ ['\r']) :
    ∃ g, gs = g ++ [.plain '\r'] ∧ Scans s x g .code := by
  -- in a comment or a string the carriage return would be the last character, and the state would not be code
  induction h generalizing x with
  | done => simp at ht
  | lineComment => simp at hlen
  | openComment _ ih =>
      obtain ⟨x, rfl, ht1⟩ := exists_of_cons_eq_append ht (by decide)
      obtain ⟨x, rfl, ht2⟩ := exists_of_cons_eq_append ht1 (by decide)
      obtain ⟨g, rfl, hg⟩ := ih he nofun (by simpa using hlen) ht2
      exact ⟨_, rfl, .openComment hg⟩
  | closeComment _ ih =>
      obtain ⟨x, rfl, ht1⟩ := exists_of_cons_eq_append ht (by decide)
      obtain ⟨x, rfl, ht2⟩ := exists_of_cons_eq_append ht1 (by decide)
      obtain ⟨g, rfl, hg⟩ := ih he nofun (by simpa using hlen) ht2
      exact ⟨_, rfl, .closeComment hg⟩
  | comment hc h ih =>
      rcases List.cons_eq_append_iff.mp ht with ⟨-, ht⟩ | ⟨x, rfl, rfl⟩
      · cases ht
        cases h
        cases he
      · obtain ⟨g, rfl, hg⟩ := ih he nofun (by simpa using hlen) rfl
        exact ⟨_, rfl, .comment (fun h => head?_ne_of_append (hc h)) hg⟩
  | openTriple _ ih =>
      obtain ⟨x, rfl, ht1⟩ := exists_of_cons_eq_append ht (by decide)
      obtain ⟨x, rfl, ht2⟩ := exists_of_cons_eq_append ht1 (by decide)
      obtain ⟨x, rfl, ht3⟩ := exists_of_cons_eq_append ht2 (by decide)
      obtain ⟨g, rfl, hg⟩ := ih he nofun (by simpa using hlen) ht3
      exact ⟨_, rfl, .openTriple hg⟩
  | closeTriple _ ih =>
      obtain ⟨x, rfl, ht1⟩ := exists_of_cons_eq_append ht (by decide)
      obtain ⟨x, rfl, ht2⟩ := exists_of_cons_eq_append ht1 (by decide)
      obtain ⟨x, rfl, ht3⟩ := exists_of_cons_eq_append ht2 (by decide)
      obtain ⟨g, rfl, hg⟩ := ih he nofun (by simpa using hlen) ht3
      exact ⟨_, rfl, .closeTriple hg⟩
  | triple hc h ih =>
      rcases List.cons_eq_append_iff.mp ht with ⟨-, ht⟩ | ⟨x, rfl, rfl⟩
      · cases ht
        cases h
        cases he
      · obtain ⟨g, rfl, hg⟩ := ih he nofun (by simpa using hlen) rfl
        exact ⟨_, rfl, .triple (fun h => not_startsPair_of_append (hc h)) hg⟩
  | @openQuote c _ _ _ hq hc _ ih =>
      rcases List.cons_eq_append_iff.mp ht with ⟨-, ht⟩ | ⟨x, rfl, rfl⟩
      · cases ht
        cases hq
      · have hne : ScanState.quoted c ≠ .quoted '\r' := by
          rintro ⟨⟩
          cases hq
        obtain ⟨g, rfl, hg⟩ := ih he hne (by simpa using hlen) rfl
        exact ⟨_, rfl, .openQuote hq (fun h => not_startsPair_of_append (hc h)) hg⟩
  | closeQuote hlast _ ih =>
      rcases List.cons_eq_append_iff.mp ht with ⟨-, ht⟩ | ⟨x, rfl, rfl⟩
      · cases ht
        exact (hs rfl).elim
      · obtain ⟨g, rfl, hg⟩ := ih he nofun (by simpa using hlen) rfl
        exact ⟨_, rfl, .closeQuote (fun h => (List.append_eq_nil_iff.mp (hlast h)).1) hg⟩
  | escape h ih =>
      obtain ⟨x, rfl, ht1⟩ := exists_of_cons_eq_append ht (by decide)
      rcases List.cons_eq_append_iff.mp ht1 with ⟨-, ht1⟩ | ⟨x, rfl, rfl⟩
      · cases ht1
        cases h
        cases he
      · obtain ⟨g, rfl, hg⟩ := ih he hs (by simpa using hlen) rfl
        exact ⟨_, rfl, .escape hg⟩
  | quoted hlast hq h ih =>
      rcases List.cons_eq_append_iff.mp ht with ⟨-, ht⟩ | ⟨x, rfl, rfl⟩
      · cases ht
        cases h
        cases he
      · obtain ⟨g, rfl, hg⟩ := ih he hs (by simpa using hlen) rfl
        exact ⟨_, rfl, .quoted (fun h => (List.append_eq_nil_iff.mp (hlast h)).1) hq hg⟩
  | openBrace _ ih =>
      obtain ⟨x, rfl, ht1⟩ := exists_of_cons_eq_append ht (by decide)
      obtain ⟨g, rfl, hg⟩ := ih he nofun (by simpa using hlen) ht1
      exact ⟨_, rfl, .openBrace hg⟩
  | closeBrace _ ih =>
      obtain ⟨x, rfl, ht1⟩ := exists_of_cons_eq_append ht (by decide)
      obtain ⟨g, rfl, hg⟩ := ih he nofun (by simpa using hlen) ht1
      exact ⟨_, rfl, .closeBrace hg⟩
  | plain hb hq hc h ih =>
      rcases List.cons_eq_append_iff.mp ht with ⟨rfl, ht⟩ | ⟨x, rfl, rfl⟩
      · cases ht
        cases h
        exact ⟨[], rfl, .done⟩
      · obtain ⟨g, rfl, hg⟩ := ih he nofun (by simpa using hlen) rfl
        refine ⟨_, rfl, .plain hb hq (fun h => ?_) hg⟩
        exact ⟨head?_ne_of_append (hc h).1, head?_ne_of_append (hc h).2⟩

/-- A line starts in no string of one line. -/
def ScanState.StartsLine (s : ScanState) : Prop := s.endLine = s

theorem ScanState.startsLine_endLine (s : ScanState) : s.endLine.StartsLine := by
  cases s <;> rfl

theorem length_scanLines (s : ScanState) (number : Nat) (raws : List Text) :
    (scanLines s number raws).length = raws.length := by
  induction raws generalizing s number with
  | nil => rfl
  | cons raw rest ih => exact congrArg (· + 1) (ih _ _)

end SchemaDiagram
