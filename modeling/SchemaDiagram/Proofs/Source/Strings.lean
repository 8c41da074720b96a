import SchemaDiagram.Proofs.Source.Scan
import SchemaDiagram.Proofs.Source.Token

/-! # Where strings begin and end

Lines and statements have readers of their own, and both look ahead for three apostrophes. Both follow
one automaton that looks at nothing but its state and the next character, so that a text may be cut and
glued anywhere. The reader of lines takes a brace for a brace exactly where the automaton is outside all
strings, and the reader of tokens finds no brace outside strings in a text in which the automaton finds
none.
-/
namespace SchemaDiagram

inductive StringState
  | outside
  /-- Behind one apostrophe. -/
  | opened
  /-- Behind two apostrophes: an empty string, unless a third one follows. -/
  | paired
  | quoted (quote : Char)
  | escaped (quote : Char)
  /-- In a triple-quoted string, behind a number of apostrophes. -/
  | triple (apostrophes : Nat)

namespace StringState

def IsOutside : StringState → Prop
  | outside | paired => True
  | opened | quoted _ | escaped _ | triple _ => False

def IsTriple : StringState → Prop
  | triple _ => True
  | outside | opened | paired | quoted _ | escaped _ => False

/-- The state behind a character outside strings. -/
def enter (c : Char) : StringState :=
  if c = '\'' then opened else if isQuote c then quoted c else outside

def step : StringState → Char → StringState
  | outside, c => enter c
  | paired, c => if c = '\'' then triple 0 else enter c
  | opened, c => if c = '\'' then paired else if c = '\\' then escaped '\'' else quoted '\''
  | quoted quote, c => if c = '\\' then escaped quote else if c = quote then outside else quoted quote
  | escaped quote, _ => quoted quote
  | triple n, c => if c = '\'' then if n = 2 then outside else triple (n + 1) else triple 0

def run (w : StringState) (t : Text) : StringState := t.foldl step w

variable {w : StringState} {c : Char}

@[simp] theorem run_nil : w.run [] = w := rfl

@[simp] theorem run_cons (t : Text) : w.run (c :: t) = (w.step c).run t := rfl

@[simp] theorem run_append (s t : Text) : w.run (s ++ t) = (w.run s).run t := List.foldl_append

theorem enter_of_not_isQuote (h : isQuote c = false) : enter c = outside := by
  have hc : c ≠ '\'' := by
    rintro rfl
    cases h
  rw [enter, if_neg hc, h]
  rfl

theorem IsOutside.step_eq (h : w.IsOutside) (hc : c ≠ '\'') : w.step c = enter c := by
  cases w with
  | outside => rfl
  | paired => exact if_neg hc
  | _ => exact h.elim

theorem IsOutside.step_of_not_isQuote (h : w.IsOutside) (hc : isQuote c = false) : w.step c = outside := by
  rw [h.step_eq (by rintro rfl; cases hc), enter_of_not_isQuote hc]

theorem run_outside {t : Text} (h : ∀ c ∈ t, isQuote c = false) : outside.run t = outside := by
  induction t with
  | nil => rfl
  | cons c rest ih =>
      rw [run_cons, IsOutside.step_of_not_isQuote (w := outside) trivial (h c List.mem_cons_self)]
      exact ih fun d hd => h d (List.mem_cons_of_mem c hd)

end StringState

def IsBrace (c : Char) : Prop := c = '\x7b' ∨ c = '\x7d'

instance (c : Char) : Decidable (IsBrace c) := inferInstanceAs (Decidable (_ ∨ _))

theorem isQuote_of_isBlank {c : Char} (h : Text.isBlank c = true) : isQuote c = false := by
  rw [Bool.eq_false_iff]
  intro hq
  simp only [isQuote, Bool.or_eq_true, beq_iff_eq] at hq
  rcases hq with (rfl | rfl) | rfl <;> cases h

theorem not_isBrace_of_isQuote {c : Char} (h : isQuote c = true) : ¬IsBrace c := by
  rintro (rfl | rfl) <;> cases h

/-- Every brace of the text stands in a string. -/
def Text.Guarded : StringState → Text → Prop
  | _, [] => True
  | w, c :: rest => (IsBrace c → ¬w.IsOutside) ∧ Guarded (w.step c) rest

theorem Text.guarded_append {w : StringState} {s t : Text} :
    Guarded w (s ++ t) ↔ Guarded w s ∧ Guarded (w.run s) t := by
  induction s generalizing w with
  | nil => simp [Guarded]
  | cons c rest ih => simp [Guarded, ih, and_assoc]

/-! ## The reader of lines -/

def ScanState.InString : ScanState → Prop
  | quoted _ | tripleQuoted => True
  | code | blockComment => False

/-- `t` is still to be read, the reader of lines is in state `s` and the automaton in state `w`. -/
inductive Agrees : ScanState → StringState → Text → Prop
  | code {t} : Agrees .code .outside t
  | paired {t} (h : t.head? ≠ some '\'') : Agrees .code .paired t
  | comment {t} : Agrees .blockComment .outside t
  | quoted {quote t} (h : quote ≠ '\\') : Agrees (.quoted quote) (.quoted quote) t
  | opened {t} (h : ¬StartsPair t) : Agrees (.quoted '\'') .opened t
  | escaped {quote} : Agrees (.quoted quote) (.escaped quote) []
  | triple {t} : Agrees .tripleQuoted (.triple 0) t
  | tripleOne {t} (h : ¬StartsPair t) : Agrees .tripleQuoted (.triple 1) t
  | tripleTwo {t} (h : t.head? ≠ some '\'') : Agrees .tripleQuoted (.triple 2) t

/-- Braces of the code are outside strings, all others are in strings. -/
def Follows : StringState → List Glyph → Prop
  | _, [] => True
  | w, .plain c :: rest => (IsBrace c → ¬w.IsOutside) ∧ Follows (w.step c) rest
  | w, .openBrace :: rest => w.IsOutside ∧ Follows (w.step '\x7b') rest
  | w, .closeBrace :: rest => w.IsOutside ∧ Follows (w.step '\x7d') rest

theorem not_startsPair_iff {t : Text} : ¬StartsPair ('\'' :: t) ↔ t.head? ≠ some '\'' := by
  cases t with
  | nil => simp [StartsPair]
  | cons c rest => simp [StartsPair]

namespace Agrees

variable {s : ScanState} {w : StringState} {t rest : Text} {c : Char}

theorem isOutside (h : Agrees .code w t) : w.IsOutside := by
  cases h <;> trivial

theorem not_isOutside (h : Agrees s w t) (hs : s.InString) : ¬w.IsOutside := by
  cases h with
  | code | paired | comment => exact hs.elim
  | _ => exact id

theorem nil (h : Agrees .code w t) : Agrees .code w [] := by
  cases h with
  | code => exact .code
  | paired => exact .paired (by simp)

theorem of_step (h : Agrees .code w t) (hc : isQuote c = false) (t' : Text) : Agrees .code (w.step c) t' := by
  rw [h.isOutside.step_of_not_isQuote hc]
  exact .code

theorem openTriple (h : Agrees .code w ('\'' :: '\'' :: '\'' :: rest)) : w.run ['\'', '\'', '\''] = .triple 0 := by
  cases h with
  | code => rfl
  | paired h => exact absurd rfl h

theorem closeTriple (h : Agrees .tripleQuoted w ('\'' :: '\'' :: '\'' :: rest)) : w = .triple 0 := by
  cases h with
  | triple => rfl
  | tripleOne h => exact absurd ⟨_, rfl⟩ h
  | tripleTwo h => exact absurd rfl h

theorem stepTriple (h : Agrees .tripleQuoted w (c :: rest)) (hc : c = '\'' → ¬StartsPair rest) :
    Agrees .tripleQuoted (w.step c) rest := by
  by_cases hq : c = '\''
  · subst hq
    cases h with
    | triple => exact .tripleOne (hc rfl)
    | tripleOne h => exact .tripleTwo (not_startsPair_iff.mp h)
    | tripleTwo h => exact absurd rfl h
  · have hstep : ∀ n, (StringState.triple n).step c = .triple 0 := fun n => if_neg hq
    cases h <;> (rw [hstep]; exact .triple)

theorem openQuote (h : Agrees .code w (c :: rest)) (hq : isQuote c = true) (hc : c = '\'' → ¬StartsPair rest) :
    Agrees (.quoted c) (w.step c) rest := by
  by_cases hs : c = '\''
  · subst hs
    cases h with
    | code => exact .opened (hc rfl)
    | paired h => exact absurd rfl h
  · have hback : c ≠ '\\' := by
      rintro rfl
      cases hq
    rw [h.isOutside.step_eq hs, StringState.enter, if_neg hs, if_pos hq]
    exact .quoted hback

theorem closeQuote {quote : Char} (h : Agrees (.quoted quote) w (quote :: rest)) :
    Agrees .code (w.step quote) rest := by
  cases h with
  | quoted h =>
      rw [StringState.step, if_neg h, if_pos rfl]
      exact .code
  | opened h => exact .paired (not_startsPair_iff.mp h)

theorem escape {quote : Char} (h : Agrees (.quoted quote) w ('\\' :: c :: rest)) :
    ¬(w.step '\\').IsOutside ∧ Agrees (.quoted quote) (w.run ['\\', c]) rest := by
  cases h with
  | quoted h => exact ⟨id, .quoted h⟩
  | opened h => exact ⟨id, .quoted (by decide)⟩

theorem stepQuoted {quote : Char} (h : Agrees (.quoted quote) w (c :: rest)) (hlast : c = '\\' → rest = [])
    (hq : c ≠ quote) : Agrees (.quoted quote) (w.step c) rest := by
  by_cases hc : c = '\\'
  · subst hc
    rw [hlast rfl]
    cases h with
    | quoted h => exact .escaped
    | opened h => exact .escaped
  · cases h with
    | quoted h =>
        rw [StringState.step, if_neg hc, if_neg hq]
        exact .quoted h
    | opened h =>
        rw [StringState.step, if_neg hq, if_neg hc]
        exact .quoted (by decide)

end Agrees

theorem Scans.follows {s e : ScanState} {t : Text} {gs : List Glyph} (h : Scans s t gs e) {w : StringState}
    (hw : Agrees s w t) : Follows w gs ∧ Agrees e (w.run (gs.map Glyph.char)) [] := by
  induction h generalizing w with
  | done => exact ⟨trivial, hw⟩
  | lineComment => exact ⟨trivial, hw.nil⟩
  | openComment _ ih =>
      have hspace := hw.isOutside.step_of_not_isQuote (c := ' ') rfl
      obtain ⟨hf, ha⟩ := ih (w := (w.step ' ').step ' ') (by rw [hspace]; exact .comment)
      exact ⟨⟨nofun, nofun, hf⟩, ha⟩
  | closeComment _ ih =>
      cases hw
      obtain ⟨hf, ha⟩ := ih .code
      exact ⟨⟨nofun, nofun, hf⟩, ha⟩
  | comment _ _ ih =>
      cases hw
      obtain ⟨hf, ha⟩ := ih .comment
      exact ⟨⟨nofun, hf⟩, ha⟩
  | openTriple _ ih =>
      obtain ⟨hf, ha⟩ := ih (w := w.run ['\'', '\'', '\'']) (by rw [hw.openTriple]; exact .triple)
      exact ⟨⟨nofun, nofun, nofun, hf⟩, ha⟩
  | closeTriple _ ih =>
      obtain rfl := hw.closeTriple
      obtain ⟨hf, ha⟩ := ih .code
      exact ⟨⟨nofun, nofun, nofun, hf⟩, ha⟩
  | triple hc _ ih =>
      obtain ⟨hf, ha⟩ := ih (hw.stepTriple hc)
      exact ⟨⟨fun _ => hw.not_isOutside trivial, hf⟩, ha⟩
  | openQuote hq hc _ ih =>
      obtain ⟨hf, ha⟩ := ih (hw.openQuote hq hc)
      exact ⟨⟨fun hb => absurd hb (not_isBrace_of_isQuote hq), hf⟩, ha⟩
  | closeQuote _ _ ih =>
      obtain ⟨hf, ha⟩ := ih hw.closeQuote
      exact ⟨⟨fun _ => hw.not_isOutside trivial, hf⟩, ha⟩
  | escape _ ih =>
      obtain ⟨hin, hnext⟩ := hw.escape
      obtain ⟨hf, ha⟩ := ih hnext
      exact ⟨⟨nofun, fun _ => hin, hf⟩, ha⟩
  | quoted hlast hq _ ih =>
      obtain ⟨hf, ha⟩ := ih (hw.stepQuoted hlast hq)
      exact ⟨⟨fun _ => hw.not_isOutside trivial, hf⟩, ha⟩
  | openBrace _ ih =>
      obtain ⟨hf, ha⟩ := ih (hw.of_step (c := '\x7b') rfl _)
      exact ⟨⟨hw.isOutside, hf⟩, ha⟩
  | closeBrace _ ih =>
      obtain ⟨hf, ha⟩ := ih (hw.of_step (c := '\x7d') rfl _)
      exact ⟨⟨hw.isOutside, hf⟩, ha⟩
  | plain hb hq _ _ ih =>
      obtain ⟨hf, ha⟩ := ih (hw.of_step hq _)
      exact ⟨⟨fun h => absurd h (not_or.mpr hb), hf⟩, ha⟩

/-! ## The reader of tokens -/

def Token.IsString : Token → Prop
  | str _ | backtick _ => True
  | _ => False

/-- The automaton has read `body`, and what a reader of tokens leaves starts outside strings. -/
def Leaves (w : StringState) (body rest : Text) : Prop := rest = [] ∨ Agrees .code (w.run body) rest

theorem readQuoted_leaves {quote : Char} {t : Text} {w : StringState} (h : Agrees (.quoted quote) w t) :
    ∃ body, t = body ++ (readQuoted quote t).2 ∧ Leaves w body (readQuoted quote t).2 := by
  fun_induction readQuoted quote t generalizing w with
  | case1 => exact ⟨[], rfl, .inl rfl⟩
  | case2 c rest content after heq ih =>
      obtain ⟨body, hbody, hleaves⟩ := ih h.escape.2
      rw [heq] at hbody hleaves
      exact ⟨'\\' :: c :: body, by rw [hbody]; rfl, hleaves⟩
  | case3 rest => exact ⟨[quote], rfl, .inr h.closeQuote⟩
  | case4 rest => exact ⟨'\\' :: rest, by simp, .inl rfl⟩
  | case5 c rest hlast hq hc content after heq ih =>
      obtain ⟨body, hbody, hleaves⟩ := ih (h.stepQuoted (fun hback => absurd hback hc) hq)
      rw [heq] at hbody hleaves
      exact ⟨c :: body, by rw [hbody]; rfl, hleaves⟩

theorem readTripleQuoted_leaves {t : Text} {w : StringState} (h : Agrees .tripleQuoted w t) :
    ∃ body, t = body ++ (readTripleQuoted t).2 ∧ Leaves w body (readTripleQuoted t).2 := by
  fun_induction readTripleQuoted t generalizing w with
  | case1 => exact ⟨[], rfl, .inl rfl⟩
  | case2 rest =>
      obtain rfl := h.closeTriple
      exact ⟨['\'', '\'', '\''], rfl, .inr .code⟩
  | case3 c rest hc content after heq ih =>
      have hpair : c = '\'' → ¬StartsPair rest := by
        rintro hq ⟨rest', hr⟩
        exact hc rest' hq hr
      obtain ⟨body, hbody, hleaves⟩ := ih (h.stepTriple hpair)
      rw [heq] at hbody hleaves
      exact ⟨c :: body, by rw [hbody]; rfl, hleaves⟩

/-- A token that is no string has no quote and no brace behind its first character. -/
theorem Token.read_of_not_isQuote {c : Char} (hc : isQuote c = false) (rest : Text) :
    ∃ body, rest = body ++ (Token.read c rest).2 ∧ (∀ d ∈ body, isQuote d = false ∧ ¬IsBrace d) ∧
      ∀ d, (Token.read c rest).1 = .other d → d = c := by
  have hword : ∀ d, isWordChar d = true → isQuote d = false ∧ ¬IsBrace d := by
    intro d hd
    have hmark := not_mem_markChars_of_isWordChar hd
    simp only [markChars, List.mem_cons, List.not_mem_nil, or_false, not_or] at hmark
    simp [isQuote, IsBrace, hmark]
  have hnil : ∀ d ∈ ([] : Text), isQuote d = false ∧ ¬IsBrace d := fun d hd => absurd hd List.not_mem_nil
  unfold Token.read
  split
  case h_10 =>
    refine ⟨['>'], rfl, fun d hd => ?_, fun d hd => by cases hd⟩
    obtain rfl := List.mem_singleton.mp hd
    exact ⟨rfl, by simp [IsBrace]⟩
  case h_16 =>
    split
    · refine ⟨_, List.takeWhile_append_dropWhile.symm, fun d hd => hword d ?_, fun d hd => by cases hd⟩
      exact List.all_eq_true.mp List.all_takeWhile d hd
    · exact ⟨[], rfl, hnil, fun d hd => by cases hd; rfl⟩
  all_goals first
    | exact ⟨[], rfl, hnil, fun d hd => by cases hd⟩
    | cases hc

theorem Token.read_of_isQuote {c : Char} (hc : isQuote c = true) {rest : Text} {w : StringState}
    (h : Agrees .code w (c :: rest)) : (Token.read c rest).1.IsString ∧
    ∃ body, rest = body ++ (Token.read c rest).2 ∧ Leaves w (c :: body) (Token.read c rest).2 := by
  simp only [isQuote, Bool.or_eq_true, beq_iff_eq] at hc
  rcases hc with (rfl | rfl) | rfl
  · by_cases hpair : StartsPair rest
    · obtain ⟨rest, rfl⟩ := hpair
      obtain ⟨body, hbody, hleaves⟩ := readTripleQuoted_leaves (w := w.run ['\'', '\'', '\'']) (t := rest)
        (by rw [h.openTriple]; exact .triple)
      exact ⟨trivial, '\'' :: '\'' :: body, congrArg (fun t => '\'' :: '\'' :: t) hbody, hleaves⟩
    · rw [Token.read]
      · exact ⟨trivial, readQuoted_leaves (h.openQuote rfl fun _ => hpair)⟩
      · exact fun rest' hr => hpair ⟨rest', hr⟩
  · exact ⟨trivial, readQuoted_leaves (h.openQuote rfl nofun)⟩
  · exact ⟨trivial, readQuoted_leaves (h.openQuote rfl nofun)⟩

theorem Token.read_leaves {c : Char} {rest : Text} {w : StringState} (h : Agrees .code w (c :: rest)) :
    ∃ body, rest = body ++ (Token.read c rest).2 ∧ Leaves w (c :: body) (Token.read c rest).2 ∧
      ((Token.read c rest).1.IsString ∨ ∀ d ∈ body, ¬IsBrace d) ∧
      ∀ d, (Token.read c rest).1 = .other d → d = c := by
  cases hq : isQuote c with
  | true =>
      obtain ⟨hstring, body, hbody, hleaves⟩ := Token.read_of_isQuote hq h
      refine ⟨body, hbody, hleaves, .inl hstring, fun d hd => ?_⟩
      rw [hd] at hstring
      exact hstring.elim
  | false =>
      obtain ⟨body, hbody, hplain, hother⟩ := Token.read_of_not_isQuote hq rest
      refine ⟨body, hbody, .inr ?_, .inr fun d hd => (hplain d hd).2, hother⟩
      have hrun : w.run (c :: body) = .outside := by
        rw [StringState.run_cons, h.isOutside.step_of_not_isQuote hq]
        exact StringState.run_outside fun d hd => (hplain d hd).1
      rw [hrun]
      exact .code

/-- The byte at `offset` stands in a string token, behind its first byte. -/
def Lexeme.Holds (x : Lexeme) (offset : Nat) : Prop := x.token.IsString ∧ x.start < offset ∧ offset < x.stop

/-- The tokens of `t`, which starts at byte `start`, keep all braces in strings. -/
structure HoldsBraces (start : Nat) (t : Text) : Prop where
  other : ∀ x ∈ tokensFrom start t, ∀ c, x.token = .other c → ¬IsBrace c
  held : ∀ before c after, t = before ++ c :: after → IsBrace c →
    ∃ x ∈ tokensFrom start t, x.Holds (start + Text.bytes before)

theorem holdsBraces_blank {start : Nat} {c : Char} {rest : Text} (hc : Text.isBlank c = true)
    (h : HoldsBraces (start + c.utf8Size) rest) : HoldsBraces start (c :: rest) := by
  have hbrace : ¬IsBrace c := by
    rintro (rfl | rfl) <;> cases hc
  constructor
  · rw [tokensFrom_blank start hc]
    exact h.other
  · intro before d after ht hd
    rw [tokensFrom_blank start hc]
    cases before with
    | nil =>
        cases ht
        exact absurd hd hbrace
    | cons c' before =>
        cases ht
        rw [Text.bytes_cons, ← Nat.add_assoc]
        exact h.held before d after rfl hd

theorem holdsBraces_read {start stop : Nat} {c : Char} {body rest : Text} {token : Token} (hc : ¬IsBrace c)
    (htokens : tokensFrom start (c :: (body ++ rest)) = ⟨token, start, stop⟩ :: tokensFrom stop rest)
    (hstop : stop = start + Text.bytes (c :: body)) (hbody : token.IsString ∨ ∀ d ∈ body, ¬IsBrace d)
    (hother : ∀ d, token = .other d → d = c) (h : HoldsBraces stop rest) :
    HoldsBraces start (c :: (body ++ rest)) := by
  constructor
  · rw [htokens]
    rintro x (_ | ⟨_, hx⟩) d hd
    · rw [hother d hd]
      exact hc
    · exact h.other x hx d hd
  · intro before d after ht hd
    rw [htokens]
    cases before with
    | nil =>
        cases ht
        exact absurd hd hc
    | cons c' before =>
        rw [List.cons_append] at ht
        obtain ⟨hhead, htail⟩ := List.cons_eq_cons.mp ht
        subst hhead
        have hlater : ∀ mid, before = body ++ mid → rest = mid ++ d :: after →
            ∃ x ∈ ⟨token, start, stop⟩ :: tokensFrom stop rest, x.Holds (start + Text.bytes (c :: before)) := by
          rintro mid rfl hrest
          obtain ⟨x, hx, hholds⟩ := h.held mid d after hrest hd
          rw [hstop, Nat.add_assoc, ← Text.bytes_append] at hholds
          exact ⟨x, List.mem_cons_of_mem _ hx, hholds⟩
        rcases List.append_eq_append_iff.mp htail with ⟨mid, hbefore, hrest⟩ | ⟨mid, hmid, hrest⟩
        · exact hlater mid hbefore hrest
        · cases mid with
          | nil => exact hlater [] (by simpa using hmid.symm) hrest.symm
          | cons d' mid =>
              cases hrest
              have hstring := hbody.resolve_right fun hplain => hplain d (by simp [hmid]) hd
              refine ⟨_, List.mem_cons_self, hstring, ?_, ?_⟩
              · have hpos := c.utf8Size_pos
                simp only [Text.bytes_cons]
                omega
              · have hpos := d.utf8Size_pos
                simp only [hstop, hmid, Text.bytes_cons, Text.bytes_append]
                omega

theorem holdsBraces_nil (start : Nat) : HoldsBraces start [] := by
  constructor
  · simp [tokensFrom]
  · simp

/-- A text in which the automaton finds every brace in a string is read with all of them in strings. -/
theorem holdsBraces_of_guarded {t : Text} {w : StringState} (h : Agrees .code w t) (hg : t.Guarded w) (start : Nat) :
    HoldsBraces start t := by
  fun_induction tokensFrom start t generalizing w with
  | case1 start => exact holdsBraces_nil start
  | case2 start c rest hb ih =>
      exact holdsBraces_blank hb (ih (h.of_step (isQuote_of_isBlank hb) rest) hg.2)
  | case3 start c rest hb read stop =>
      rename_i ih
      obtain ⟨body, hbody, hleaves, hstring, hother⟩ := Token.read_leaves h
      have hc : ¬IsBrace c := fun hc => hg.1 hc h.isOutside
      have hstop : stop = start + Text.bytes (c :: body) := by
        have hbytes := congrArg Text.bytes hbody
        rw [Text.bytes_append] at hbytes
        simp only [stop, read, Text.bytes_cons]
        omega
      have hrest : HoldsBraces stop read.2 := by
        rcases hleaves with hnil | hagrees
        · rw [show read.2 = [] from hnil]
          exact holdsBraces_nil stop
        · rw [hbody] at hg
          exact ih hagrees (Text.guarded_append.mp hg.2).2
      have hread : Token.read c (body ++ read.2) = (read.1, read.2) := by rw [← hbody]
      have htokens := tokensFrom_read start (by simpa using hb) hread
      rw [← hstop] at htokens
      rw [hbody]
      exact holdsBraces_read hc htokens hstop hstring hother hrest

end SchemaDiagram
