import Mathlib.Data.List.Chain
import SchemaDiagram.Source.Line
import SchemaDiagram.Proofs.Source.Token
import SchemaDiagram.Proofs.Text.Blank

/-! # Written lines

A line of schema text is written segment by segment, each a token or a space. The reader of lines finds
no comment and no brace in what is written, and the reader of tokens finds the tokens that were written,
each at its place.
-/
namespace SchemaDiagram

/-! ## Strings -/

namespace Text

def escapeChar (c : Char) : Text := if c = '"' ∨ c = '\\' then ['\\', c] else [c]

/-- A text with a backslash in front of every double quote and every backslash. -/
def escape (s : Text) : Text := s.flatMap escapeChar

def quote (s : Text) : Text := '"' :: (escape s ++ ['"'])

theorem escape_cons (c : Char) (s : Text) : escape (c :: s) = escapeChar c ++ escape s := rfl

theorem readQuoted_escape (s rest : Text) : readQuoted '"' (escape s ++ '"' :: rest) = (s, rest) := by
  induction s with
  | nil => simp [escape, readQuoted]
  | cons c s ih =>
      rw [escape_cons, escapeChar]
      split
      · simp [readQuoted, ih]
      · next h =>
          rw [not_or] at h
          simp [readQuoted, h, ih]

theorem scanChars_escape (s rest : Text) :
    scanChars (.quoted '"') (escape s ++ '"' :: rest) =
      ((escape s ++ ['"']).map .plain ++ (scanChars .code rest).1, (scanChars .code rest).2) := by
  induction s with
  | nil => simp [escape, scanChars]
  | cons c s ih =>
      rw [escape_cons, escapeChar]
      split
      · simp [scanChars, ih]
      · next h =>
          rw [not_or] at h
          simp [scanChars, h, ih]

theorem mem_escape {c : Char} {s : Text} (h : c ∈ escape s) : c ∈ s ∨ c = '\\' := by
  obtain ⟨d, hd, hc⟩ := List.mem_flatMap.mp h
  rw [escapeChar] at hc
  split at hc
  · rcases List.mem_cons.mp hc with rfl | hc
    · exact .inr rfl
    · exact .inl (List.mem_singleton.mp hc ▸ hd)
  · exact .inl (List.mem_singleton.mp hc ▸ hd)

end Text

/-! ## Segments -/

inductive Segment
  | space
  | word (w : Text)
  | str (content : Text)
  | openBracket
  | closeBracket
  | comma
  | colon
  | dot
  | op (kind : RelationKind)

namespace Segment

def text : Segment → Text
  | space => [' ']
  | word w => w
  | str content => Text.quote content
  | openBracket => ['[']
  | closeBracket => [']']
  | comma => [',']
  | colon => [':']
  | dot => ['.']
  | op kind => kind.symbol

def token? : Segment → Option Token
  | space => none
  | word w => some (.word w)
  | str content => some (.str content)
  | openBracket => some .openBracket
  | closeBracket => some .closeBracket
  | comma => some .comma
  | colon => some .colon
  | dot => some .dot
  | op kind => some (.op kind)

def WellFormed : Segment → Prop
  | word w => w.IsWord
  | _ => True

/-- Two words or two signs without a space between them are read as one. -/
def Meets : Segment → Segment → Prop
  | word _, word _ | op _, op _ => False
  | _, _ => True

theorem head_text_of_meets_word {w : Text} {q : Segment} (h : (word w).Meets q) {c : Char} {t : Text}
    (hc : q.text = c :: t) : isWordChar c = false := by
  have hspace : isWordChar ' ' = false := isWordChar_of_isBlank (by decide)
  cases q with
  | word _ => exact h.elim
  | space => cases hc; exact hspace
  | op kind => cases kind <;> cases hc <;> exact isWordChar_of_mem_markChars (by decide)
  | _ => cases hc; exact isWordChar_of_mem_markChars (by decide)

theorem head_text_of_meets_op {kind : RelationKind} {q : Segment} (h : (op kind).Meets q) (hq : q.WellFormed)
    {c : Char} {t : Text} (hc : q.text = c :: t) : c ≠ '>' := by
  cases q with
  | op _ => exact h.elim
  | word w =>
      rintro rfl
      have hword := hq.isWordChar (show '>' ∈ w by rw [show w = _ from hc]; simp)
      exact Bool.false_ne_true ((isWordChar_of_mem_markChars (by decide)).symm.trans hword)
  | _ => cases hc; decide

theorem exists_text_eq_cons {p : Segment} (h : p.WellFormed) : ∃ c t, p.text = c :: t := by
  cases p with
  | word w => exact List.exists_cons_of_ne_nil h.1
  | op kind => cases kind <;> exact ⟨_, _, rfl⟩
  | _ => exact ⟨_, _, rfl⟩

/-! ## Lines -/

def line (ps : List Segment) : Text := ps.flatMap text

@[simp] theorem line_nil : line [] = [] := rfl

@[simp] theorem line_cons (p : Segment) (ps : List Segment) : line (p :: ps) = p.text ++ line ps := rfl

@[simp] theorem line_append (ps qs : List Segment) : line (ps ++ qs) = line ps ++ line qs := List.flatMap_append

def lexemes : Nat → List Segment → List Lexeme
  | _, [] => []
  | start, p :: rest =>
    let stop := start + p.text.bytes
    match p.token? with
    | some token => ⟨token, start, stop⟩ :: lexemes stop rest
    | none => lexemes stop rest

theorem lexemes_append (start : Nat) (ps qs : List Segment) :
    lexemes start (ps ++ qs) = lexemes start ps ++ lexemes (start + (line ps).bytes) qs := by
  induction ps generalizing start with
  | nil => rfl
  | cons p ps ih =>
      simp only [List.cons_append, lexemes, line_cons, Text.bytes_append, ← Nat.add_assoc, ih]
      split <;> rfl

/-- What can be read back as it is written. -/
structure Readable (ps : List Segment) : Prop where
  wellFormed : ∀ p ∈ ps, p.WellFormed
  meets : ps.IsChain Meets

theorem Readable.tail {p : Segment} {ps : List Segment} (h : Readable (p :: ps)) : Readable ps :=
  ⟨fun q hq => h.wellFormed q (List.mem_cons_of_mem p hq), h.meets.tail⟩

theorem Readable.meets_head {p : Segment} {ps : List Segment} (h : Readable (p :: ps)) {c : Char} {t : Text}
    (hc : line ps = c :: t) : ∃ q, p.Meets q ∧ q.WellFormed ∧ ∃ t', q.text = c :: t' := by
  cases ps with
  | nil => cases hc
  | cons q qs =>
      have hq := h.wellFormed q (by simp)
      obtain ⟨c', t', ht⟩ := exists_text_eq_cons hq
      rw [line_cons, ht] at hc
      cases hc
      exact ⟨q, (List.isChain_cons_cons.mp h.meets).1, hq, t', ht⟩

/-- Whatever stands next to a break is told apart from it. -/
def IsBreak : Segment → Prop
  | word _ | op _ => False
  | _ => True

theorem IsBreak.meets_left {p : Segment} (h : p.IsBreak) (q : Segment) : p.Meets q := by
  cases p <;> first | exact h.elim | cases q <;> trivial

theorem IsBreak.meets_right {p : Segment} (h : p.IsBreak) (q : Segment) : q.Meets p := by
  cases p <;> first | exact h.elim | cases q <;> trivial

theorem readable_nil : Readable [] := ⟨by simp, List.isChain_nil⟩

theorem readable_singleton {p : Segment} (h : p.WellFormed) : Readable [p] :=
  ⟨by simpa using h, List.isChain_singleton p⟩

theorem Readable.append {ps qs : List Segment} (hps : Readable ps) (hqs : Readable qs)
    (h : ∀ q ∈ qs.head?, q.IsBreak) : Readable (ps ++ qs) := by
  refine ⟨fun p hp => ?_, List.isChain_append.mpr ⟨hps.meets, hqs.meets, fun p _ q hq => (h q hq).meets_right p⟩⟩
  rcases List.mem_append.mp hp with hp | hp
  · exact hps.wellFormed p hp
  · exact hqs.wellFormed p hp

theorem Readable.cons {p : Segment} {ps : List Segment} (h : Readable ps) (hp : p.IsBreak) :
    Readable (p :: ps) := by
  refine ⟨?_, List.isChain_cons.mpr ⟨fun q _ => hp.meets_left q, h.meets⟩⟩
  intro q hq
  rcases List.mem_cons.mp hq with rfl | hq
  · cases q <;> first | exact hp.elim | trivial
  · exact h.wellFormed q hq

/-! ## Reading tokens -/

/-- The segment is told apart from what stands behind it. -/
def EndsBefore : Segment → Text → Prop
  | word _, rest => ∀ d t, rest = d :: t → isWordChar d = false
  | op _, rest => ∀ d t, rest = d :: t → d ≠ '>'
  | _, _ => True

theorem Readable.endsBefore {p : Segment} {ps : List Segment} (h : Readable (p :: ps)) : p.EndsBefore (line ps) := by
  cases p with
  | word w =>
      intro d t hd
      obtain ⟨q, hmeets, -, t', hq⟩ := h.meets_head hd
      exact head_text_of_meets_word hmeets hq
  | op kind =>
      intro d t hd
      obtain ⟨q, hmeets, hwf, t', hq⟩ := h.meets_head hd
      exact head_text_of_meets_op hmeets hwf hq
  | _ => trivial

theorem endsBefore_nil (p : Segment) : p.EndsBefore [] := by
  cases p with
  | word w =>
      intro d t h
      cases h
  | op kind =>
      intro d t h
      cases h
  | _ => trivial

theorem EndsBefore.append {p : Segment} {t : Text} (h : p.EndsBefore t) (ht : t ≠ []) (more : Text) :
    p.EndsBefore (t ++ more) := by
  obtain ⟨c, t, rfl⟩ := List.exists_cons_of_ne_nil ht
  cases p with
  | word w => exact fun d _ hd => h d t (congrArg (· :: t) (List.cons.inj hd).1)
  | op kind => exact fun d _ hd => h d t (congrArg (· :: t) (List.cons.inj hd).1)
  | _ => trivial

theorem read_word {c : Char} {w rest : Text} (hw : Text.IsWord (c :: w))
    (hrest : ∀ d t, rest = d :: t → isWordChar d = false) :
    Token.read c (w ++ rest) = (.word (c :: w), rest) := by
  have hstop : rest.takeWhile isWordChar = [] ∧ rest.dropWhile isWordChar = rest := by
    cases rest with
    | nil => exact ⟨rfl, rfl⟩
    | cons d t => simp [hrest d t rfl]
  have hall : ∀ x ∈ w, isWordChar x = true := fun x hx => hw.isWordChar (List.mem_cons_of_mem c hx)
  rw [Token.read_of_isWordChar (hw.isWordChar List.mem_cons_self), List.takeWhile_append_of_pos hall,
    List.dropWhile_append_of_pos hall, hstop.1, hstop.2, List.append_nil]

theorem read_op (kind : RelationKind) {rest : Text} (hrest : ∀ d t, rest = d :: t → d ≠ '>') :
    ∃ c t, kind.symbol = c :: t ∧ Token.read c (t ++ rest) = (.op kind, rest) := by
  cases kind with
  | backward =>
      refine ⟨'<', [], rfl, ?_⟩
      cases rest with
      | nil => rfl
      | cons d t =>
          unfold Token.read
          split <;> simp_all
  | _ => exact ⟨_, _, rfl, rfl⟩

theorem tokensFrom_text {p : Segment} (hp : p.WellFormed) {rest : Text} (h : p.EndsBefore rest) (start : Nat) :
    tokensFrom start (p.text ++ rest) = match p.token? with
      | some token => ⟨token, start, start + p.text.bytes⟩ :: tokensFrom (start + p.text.bytes) rest
      | none => tokensFrom (start + p.text.bytes) rest := by
  have hmark : ∀ {c : Char} {token : Token} (body : Text), c ∈ markChars →
      Token.read c (body ++ rest) = (token, rest) → tokensFrom start (c :: (body ++ rest)) =
        ⟨token, start, start + Text.bytes (c :: body)⟩ :: tokensFrom (start + Text.bytes (c :: body)) rest :=
    fun _ hc hread => tokensFrom_read start (isBlank_of_mem_markChars hc) hread
  cases p with
  | space => exact tokensFrom_blank start (by decide) rest
  | word w =>
      have hw : w.IsWord := hp
      obtain ⟨c, w, rfl⟩ := List.exists_cons_of_ne_nil hw.1
      exact tokensFrom_read start (isBlank_of_isWordChar (hw.isWordChar List.mem_cons_self)) (read_word hw h)
  | str content =>
      have hread : Token.read '"' ((Text.escape content ++ ['"']) ++ rest) = (.str content, rest) := by
        rw [List.append_assoc]
        simp only [Token.read, List.cons_append, List.nil_append, Text.readQuoted_escape]
      exact hmark _ (by decide) hread
  | op kind =>
      obtain ⟨c, t, hsymbol, hread⟩ := read_op kind h
      have hc : c ∈ markChars := by
        cases kind <;> cases hsymbol <;> decide
      simp only [text, token?, hsymbol]
      exact hmark t hc hread
  | _ => exact hmark [] (by decide) rfl

/-- The tokens of a line are those that were written, and behind it reading goes on. -/
theorem tokensFrom_line_append {ps : List Segment} (h : Readable ps) {rest : Text}
    (hlast : ∀ p ∈ ps.getLast?, p.EndsBefore rest) (start : Nat) :
    tokensFrom start (line ps ++ rest) = lexemes start ps ++ tokensFrom (start + (line ps).bytes) rest := by
  induction ps generalizing start with
  | nil => rfl
  | cons p ps ih =>
      have hp : p.EndsBefore (line ps ++ rest) := by
        cases ps with
        | nil => exact hlast p rfl
        | cons q qs =>
            obtain ⟨c, t, ht⟩ := exists_text_eq_cons (h.tail.wellFormed q List.mem_cons_self)
            exact h.endsBefore.append (by simp [ht]) rest
      have hrest : ∀ q ∈ ps.getLast?, q.EndsBefore rest := by
        cases ps with
        | nil => nofun
        | cons q qs => exact hlast
      rw [line_cons, List.append_assoc, tokensFrom_text (h.wellFormed p List.mem_cons_self) hp, ih h.tail hrest,
        Text.bytes_append, lexemes, Nat.add_assoc]
      cases p.token? <;> rfl

theorem tokensFrom_line {ps : List Segment} (h : Readable ps) (start : Nat) :
    tokensFrom start (line ps) = lexemes start ps := by
  have hnil : ∀ start, tokensFrom start [] = [] := fun _ => by rw [tokensFrom]
  have happend := tokensFrom_line_append h (fun p _ => p.endsBefore_nil) start
  rwa [List.append_nil, hnil, List.append_nil] at happend

theorem tokens_line {ps : List Segment} (h : Readable ps) : tokens (line ps) = lexemes 0 ps := tokensFrom_line h 0

/-! ## Reading code -/

/-- The characters that the reader of lines takes for more than they are. -/
def codeChars : Text := ['/', '\'', '"', '\x60', '\x7b', '\x7d']

theorem scanChars_plain {c : Char} (h : c ∉ codeChars) (rest : Text) :
    scanChars .code (c :: rest) = (.plain c :: (scanChars .code rest).1, (scanChars .code rest).2) := by
  simp only [codeChars, List.mem_cons, List.not_mem_nil, or_false, not_or] at h
  obtain ⟨hslash, hsingle, hdouble, hback, hopen, hclose⟩ := h
  have hquote : isQuote c = false := by simp [isQuote, hsingle, hdouble, hback]
  have hc : scanCodeChar c = (.plain c, .code) := by simp [scanCodeChar, hopen, hclose, hquote]
  rw [scanChars, hc]
  · exact fun _ hc => absurd hc hslash
  · exact fun _ hc => absurd hc hslash
  · exact fun _ hc => absurd hc hsingle

theorem scanChars_plains {t : Text} (h : ∀ c ∈ t, c ∉ codeChars) (rest : Text) :
    scanChars .code (t ++ rest) = (t.map .plain ++ (scanChars .code rest).1, (scanChars .code rest).2) := by
  induction t with
  | nil => rfl
  | cons c t ih =>
      rw [List.cons_append, scanChars_plain (h c List.mem_cons_self), ih fun d hd => h d (List.mem_cons_of_mem c hd)]
      rfl

theorem scanChars_text {p : Segment} (h : p.WellFormed) (rest : Text) :
    scanChars .code (p.text ++ rest) =
      (p.text.map .plain ++ (scanChars .code rest).1, (scanChars .code rest).2) := by
  cases p with
  | word w =>
      refine scanChars_plains (fun c hc hcode => ?_) rest
      have hmark : ∀ d ∈ codeChars, d ∈ markChars := by simp [codeChars, markChars]
      exact not_mem_markChars_of_isWordChar (h.isWordChar hc) (hmark c hcode)
  | str content =>
      have hstart : ∀ t, scanChars .code ('"' :: t) =
          (.plain '"' :: (scanChars (.quoted '"') t).1, (scanChars (.quoted '"') t).2) := fun _ => rfl
      simp only [text, Text.quote, List.cons_append, List.append_assoc, hstart, List.nil_append]
      rw [Text.scanChars_escape]
      rfl
  | op kind => cases kind <;> exact scanChars_plains (by simp [text, RelationKind.symbol, codeChars]) rest
  | _ => exact scanChars_plains (by simp [text, codeChars]) rest

theorem scanChars_line {ps : List Segment} (h : ∀ p ∈ ps, p.WellFormed) (rest : Text) :
    scanChars .code (line ps ++ rest) =
      ((line ps).map .plain ++ (scanChars .code rest).1, (scanChars .code rest).2) := by
  induction ps with
  | nil => rfl
  | cons p ps ih =>
      rw [line_cons, List.append_assoc, scanChars_text (h p List.mem_cons_self),
        ih fun q hq => h q (List.mem_cons_of_mem p hq)]
      simp

/-! ## Blanks around lines -/

/-- A line that neither starts nor ends with a space. -/
structure HasEnds (ps : List Segment) : Prop where
  first : ∃ p rest, ps = p :: rest ∧ p ≠ space
  last : ∃ init p, ps = init ++ [p] ∧ p ≠ space

theorem isBlank_head_text {p : Segment} (h : p.WellFormed) (hp : p ≠ space) :
    ∃ c t, p.text = c :: t ∧ Text.isBlank c = false := by
  cases p with
  | space => exact absurd rfl hp
  | word w =>
      obtain ⟨c, t, hw⟩ := List.exists_cons_of_ne_nil h.1
      exact ⟨c, t, hw, isBlank_of_isWordChar (h.isWordChar (by simp [hw]))⟩
  | op kind => cases kind <;> exact ⟨_, _, rfl, by decide⟩
  | _ => exact ⟨_, _, rfl, by decide⟩

theorem isBlank_last_text {p : Segment} (h : p.WellFormed) (hp : p ≠ space) :
    ∃ t c, p.text = t ++ [c] ∧ Text.isBlank c = false := by
  cases p with
  | space => exact absurd rfl hp
  | word w =>
      obtain ⟨t, c, hw⟩ := (List.eq_nil_or_concat' w).resolve_left h.1
      exact ⟨t, c, hw, isBlank_of_isWordChar (h.isWordChar (by simp [hw]))⟩
  | str content => exact ⟨'"' :: Text.escape content, '"', rfl, by decide⟩
  | op kind => cases kind <;> first | exact ⟨[], _, rfl, by decide⟩ | exact ⟨['<'], '>', rfl, by decide⟩
  | _ => exact ⟨[], _, rfl, by decide⟩

theorem trimStart_line {ps : List Segment} (hw : ∀ p ∈ ps, p.WellFormed) (h : HasEnds ps) (more : Text) :
    Text.trimStart (line ps ++ more) = line ps ++ more := by
  obtain ⟨p, rest, rfl, hp⟩ := h.first
  obtain ⟨c, t, ht, hc⟩ := isBlank_head_text (hw p List.mem_cons_self) hp
  simp [ht, Text.trimStart, hc]

theorem trimEnd_line {ps : List Segment} (hw : ∀ p ∈ ps, p.WellFormed) (h : HasEnds ps) :
    Text.trimEnd (line ps) = line ps := by
  obtain ⟨init, p, rfl, hp⟩ := h.last
  obtain ⟨t, c, ht, hc⟩ := isBlank_last_text (hw p (by simp)) hp
  have hline : line (init ++ [p]) = line init ++ t ++ [c] := by simp [ht]
  rw [hline, Text.trimEnd_concat hc]

theorem trim_line {ps : List Segment} (hw : ∀ p ∈ ps, p.WellFormed) (h : HasEnds ps) :
    Text.trim (line ps) = line ps := by
  have hstart := trimStart_line hw h []
  rw [List.append_nil] at hstart
  rw [Text.trim, hstart, trimEnd_line hw h]

theorem trim_line_space {ps : List Segment} (hw : ∀ p ∈ ps, p.WellFormed) (h : HasEnds ps) :
    Text.trim (line ps ++ [' ']) = line ps := by
  rw [Text.trim, trimStart_line hw h, Text.trimEnd_concat_blank (by decide), trimEnd_line hw h]

theorem trim_space_line {ps : List Segment} (hw : ∀ p ∈ ps, p.WellFormed) (h : HasEnds ps) :
    Text.trim (' ' :: line ps) = line ps :=
  trim_line hw h

end Segment
end SchemaDiagram
