import SchemaDiagram.Source.Token

/-! # Reading tokens

How a text that starts with a known token goes on, and what can be put behind a text without changing
its first token.
-/
namespace SchemaDiagram

/-! ## Classes of characters -/

/-- The characters that stand for themselves, start a string or a comment, or are braces. -/
def markChars : Text :=
  ['[', ']', '(', ')', ',', ':', '.', '-', '<', '>', '\'', '"', '\x60', '\x7b', '\x7d', '/', '\\']

theorem isWordChar_of_mem_markChars {c : Char} (h : c ∈ markChars) : isWordChar c = false := by
  have hall : markChars.all (!isWordChar ·) = true := by decide
  simpa using List.all_eq_true.mp hall c h

theorem isBlank_of_mem_markChars {c : Char} (h : c ∈ markChars) : Text.isBlank c = false := by
  have hall : markChars.all (!Text.isBlank ·) = true := by decide
  simpa using List.all_eq_true.mp hall c h

theorem not_mem_markChars_of_isWordChar {c : Char} (h : isWordChar c = true) : c ∉ markChars :=
  fun hm => Bool.false_ne_true (isWordChar_of_mem_markChars hm ▸ h)

def blankCodes : List Nat :=
  [9, 10, 11, 12, 13, 0x20, 0x85, 0xA0, 0x1680, 0x2000, 0x2001, 0x2002, 0x2003, 0x2004, 0x2005, 0x2006, 0x2007,
   0x2008, 0x2009, 0x200A, 0x2028, 0x2029, 0x202F, 0x205F, 0x3000]

theorem toNat_mem_blankCodes {c : Char} (h : Text.isBlank c = true) : c.toNat ∈ blankCodes := by
  simp only [Text.isBlank, Bool.or_eq_true, Bool.and_eq_true, decide_eq_true_eq, beq_iff_eq] at h
  simp only [blankCodes, List.mem_cons, List.not_mem_nil, or_false]
  omega

theorem isWordChar_of_isBlank {c : Char} (h : Text.isBlank c = true) : isWordChar c = false := by
  have hall : ∀ n ∈ blankCodes, isWordChar (Char.ofNat n) = false := by decide +kernel
  simpa using hall _ (toNat_mem_blankCodes h)

theorem isBlank_of_isWordChar {c : Char} (h : isWordChar c = true) : Text.isBlank c = false := by
  rw [Bool.eq_false_iff]
  intro hb
  exact Bool.false_ne_true (isWordChar_of_isBlank hb ▸ h)

/-- A text that is read as one word. -/
def Text.IsWord (w : Text) : Prop := w ≠ [] ∧ w.all isWordChar = true

instance (w : Text) : Decidable w.IsWord := inferInstanceAs (Decidable (_ ∧ _))

theorem Text.IsWord.isWordChar {w : Text} (h : w.IsWord) {c : Char} (hc : c ∈ w) : isWordChar c = true :=
  List.all_eq_true.mp h.2 c hc

/-! ## The first token -/

theorem Token.read_of_isWordChar {c : Char} (h : isWordChar c = true) (rest : Text) :
    Token.read c rest = (.word (c :: rest.takeWhile isWordChar), rest.dropWhile isWordChar) := by
  have hc := not_mem_markChars_of_isWordChar h
  unfold Token.read
  split <;> simp_all [markChars]

theorem Token.isWordChar_of_read_eq_word {c : Char} {rest w : Text} (h : (Token.read c rest).1 = .word w) :
    isWordChar c = true := by
  unfold Token.read at h
  split at h <;> try cases h
  split at h
  · assumption
  · cases h

theorem tokensFrom_blank (start : Nat) {c : Char} (h : Text.isBlank c = true) (rest : Text) :
    tokensFrom start (c :: rest) = tokensFrom (start + c.utf8Size) rest := by
  rw [tokensFrom, if_pos h]

theorem tokensFrom_read (start : Nat) {c : Char} {body rest : Text} {t : Token} (hc : Text.isBlank c = false)
    (h : Token.read c (body ++ rest) = (t, rest)) :
    tokensFrom start (c :: (body ++ rest)) =
      ⟨t, start, start + Text.bytes (c :: body)⟩ :: tokensFrom (start + Text.bytes (c :: body)) rest := by
  have hstop : c.utf8Size + Text.bytes (body ++ rest) - Text.bytes rest = Text.bytes (c :: body) := by
    simp only [Text.bytes_append, Text.bytes_cons]
    omega
  rw [tokensFrom, if_neg (by simp [hc])]
  simp only [h, hstop]

theorem takeWhile_append_of_stop {p : Char → Bool} {stop : Char} (t : Text) (h : p stop = false) (more : Text) :
    (t ++ stop :: more).takeWhile p = t.takeWhile p := by
  induction t with
  | nil => simp [h]
  | cons c rest ih => simp only [List.cons_append, List.takeWhile_cons, ih]

/-- A word at the start of a text stays its first token when a line follows. -/
theorem head?_tokensFrom_append {start : Nat} {t : Text} {x : Lexeme} {w : Text}
    (h : (tokensFrom start t).head? = some x) (hw : x.token = .word w) (more : Text) :
    (tokensFrom start (t ++ '\n' :: more)).head?.map Lexeme.token = some (.word w) := by
  induction t generalizing start with
  | nil => simp [tokensFrom] at h
  | cons c rest ih =>
      by_cases hb : Text.isBlank c = true
      · rw [List.cons_append, tokensFrom_blank _ hb]
        rw [tokensFrom_blank _ hb] at h
        exact ih h
      · rw [tokensFrom, if_neg hb] at h
        simp only [List.head?_cons, Option.some.injEq] at h
        subst h
        have hc := Token.isWordChar_of_read_eq_word hw
        rw [Token.read_of_isWordChar hc] at hw
        rw [List.cons_append, tokensFrom, if_neg hb, Token.read_of_isWordChar hc]
        have hstop : isWordChar '\n' = false := by decide
        simp only [List.head?_cons, Option.map_some, ← hw, takeWhile_append_of_stop rest hstop]

end SchemaDiagram
