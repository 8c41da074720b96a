import SchemaDiagram.Proofs.Grammar.Shift
import SchemaDiagram.Proofs.Source.Literal
import SchemaDiagram.Proofs.Source.Prefix

/-! # Tokens and the blanks between them

The tokens of a text stand one behind the other, all that is between them and around them is blank, and only strings
have blanks in them. So a space between two texts keeps their tokens apart, if no string is open in front of it.
-/
namespace SchemaDiagram

/-! ## Blanks in tokens and outside of them -/

/-- A token that is no string has no blank in it. -/
theorem Token.isBlank_of_mem_read {c : Char} {body rest : Text} {token : Token} (hc : Text.isBlank c = false)
    (hread : Token.read c (body ++ rest) = (token, rest)) (hstring : ¬token.IsString) :
    ∀ d ∈ c :: body, Text.isBlank d = false := by
  refine List.forall_mem_cons.mpr ⟨hc, ?_⟩
  rcases read_cases c with ⟨single, hsingle⟩ | rfl | hquote | hword
  · have hbody : body ++ rest = rest := congrArg Prod.snd ((hsingle _).symm.trans hread)
    obtain rfl : body = [] := by simpa using hbody
    exact nofun
  · cases body with
    | nil => exact nofun
    | cons d body =>
        by_cases hd : d = '>'
        · subst hd
          have hbody : body ++ rest = rest := congrArg Prod.snd hread
          obtain rfl : body = [] := by simpa using hbody
          exact List.forall_mem_singleton.mpr (by decide)
        · have hsingle : read '<' (d :: body ++ rest) = (.op .backward, d :: body ++ rest) := by
            rw [List.cons_append, read]
            rintro more ⟨⟩
            exact hd rfl
          have hbody : d :: body ++ rest = rest := congrArg Prod.snd (hsingle.symm.trans hread)
          have hlength := congrArg List.length hbody
          simp only [List.length_append, List.length_cons] at hlength
          omega
  · have hstr : (read c (body ++ rest)).1.IsString := (read_of_isQuote hquote .code).1
    rw [hread] at hstr
    exact absurd hstr hstring
  · obtain rfl : Token.word _ = token := congrArg Prod.fst ((read_of_isWordChar hword _).symm.trans hread)
    obtain ⟨hbody, hall⟩ := eq_of_read_eq_word hread
    intro d hd
    exact isBlank_of_isWordChar (hall d (hbody ▸ List.mem_cons_of_mem c hd))

/-- A character of two texts stands in the first one or behind it. -/
theorem Text.cut_append_cases {a b before after : Text} {c : Char} (h : before ++ c :: after = a ++ b) :
    c ∈ a ∧ before.bytes < a.bytes ∨ ∃ mid : Text, before = a ++ mid ∧ b = mid ++ c :: after := by
  rcases List.append_eq_append_iff.mp h with ⟨part, rfl, hpart⟩ | hbehind
  · cases part with
    | nil => exact .inr ⟨[], by simp, hpart.symm⟩
    | cons d part =>
        obtain ⟨rfl, -⟩ := List.cons.inj hpart
        have hpos := c.utf8Size_pos
        refine .inl ⟨by simp, ?_⟩
        rw [bytes_append, bytes_cons]
        omega
  · exact .inr hbehind

namespace Spans

variable {start : Nat} {t : Text} {xs : List Lexeme}

/-- Every token is read from its characters and what stands behind them. -/
theorem exists_read (h : Spans start t xs) {x : Lexeme} (hx : x ∈ xs) :
    ∃ (before : Text) (c : Char) (body after : Text), t = before ++ (c :: body ++ after) ∧
      x.start = start + before.bytes ∧ x.stop = x.start + Text.bytes (c :: body) ∧ Text.isBlank c = false ∧
      Token.read c (body ++ after) = (x.token, after) := by
  induction h with
  | blank => cases hx
  | @token start blanks c body rest token xs hblanks hc hread h ih =>
      rcases List.mem_cons.mp hx with rfl | hx
      · exact ⟨blanks, c, body, rest, rfl, rfl, by rw [Text.bytes_append, Nat.add_assoc], hc, hread⟩
      · obtain ⟨before, c', body', after, rfl, hstart, hstop, hc', hread'⟩ := ih hx
        refine ⟨blanks ++ c :: body ++ before, c', body', after, by simp, ?_, hstop, hc', hread'⟩
        rw [hstart, Nat.add_assoc, ← Text.bytes_append]

/-- A character at the bytes of no token is blank. -/
theorem isBlank_of_outside (h : Spans start t xs) {before after : Text} {c : Char} (ht : t = before ++ c :: after)
    (houtside : ∀ x ∈ xs, x.start ≤ start + before.bytes → x.stop ≤ start + before.bytes) :
    Text.isBlank c = true := by
  induction h generalizing before with
  | blank hblanks => exact hblanks c (by simp [ht])
  | @token start blanks d body rest token xs hblanks hd hread h ih =>
      rcases Text.cut_append_cases ht.symm with ⟨hc, -⟩ | ⟨mid, rfl, hmid⟩
      · exact hblanks c hc
      · have hbehind := houtside _ List.mem_cons_self
        simp only [Text.bytes_append, ← Nat.add_assoc, Nat.le_add_right, forall_const] at hbehind
        rcases Text.cut_append_cases hmid.symm with ⟨-, hlt⟩ | ⟨mid, rfl, hrest⟩
        · omega
        · refine ih hrest fun x hx hle => ?_
          have hstop := houtside x (List.mem_cons_of_mem _ hx)
          simp only [Text.bytes_append, ← Nat.add_assoc] at hstop hle ⊢
          exact hstop hle

end Spans

/-! ## A space behind a text -/

/-- No token of the text is a string without an end. -/
def Text.StringsClosed (t : Text) : Prop := ∀ x ∈ tokens t, ¬UnendedString (t.slice x.start x.stop)

theorem not_startsPair_append_space {t : Text} (h : ¬StartsPair t) (more : Text) : ¬StartsPair (t ++ ' ' :: more) := by
  rintro ⟨behind, hbehind⟩
  rcases t with - | ⟨c, - | ⟨d, t⟩⟩
  · cases hbehind
  · cases hbehind
  · obtain ⟨rfl, hrest⟩ := List.cons.inj hbehind
    obtain ⟨rfl, -⟩ := List.cons.inj hrest
    exact h ⟨t, rfl⟩

namespace Token

theorem read_append_space_of_end {c : Char} {t : Text} (hend : (read c t).2 = []) (hclosed : ¬UnendedString (c :: t))
    (more : Text) : read c (t ++ ' ' :: more) = ((read c t).1, ' ' :: more) := by
  rcases read_cases c with ⟨single, hsingle⟩ | rfl | hquote | hword
  · rw [hsingle] at hend
    obtain rfl : t = [] := hend
    rw [hsingle, hsingle, List.nil_append]
  · cases t with
    | nil => rfl
    | cons d t =>
        by_cases hd : d = '>'
        · subst hd
          obtain rfl : t = [] := hend
          rfl
        · rw [read] at hend
          · cases hend
          · rintro more ⟨⟩
            exact hd rfl
  · by_cases hpair : c = '\'' ∧ StartsPair t
    · obtain ⟨rfl, behind, rfl⟩ := hpair
      have hmark : tripleMark <:+: behind := by
        by_contra hmark
        exact hclosed (.triple hmark)
      rw [read_pair] at hend
      have hread := readTripleQuoted_append_of_closed hmark hend (' ' :: more)
      rw [List.cons_append, List.cons_append, read_pair, read_pair, hread]
    · obtain ⟨hc, make, -, hread⟩ := read_quoted hquote
      have hfront : c = '\'' → ¬StartsPair t := fun h hp => hpair ⟨h, hp⟩
      rw [hread t hfront] at hend
      have hbody : ¬Unclosed c t := fun h => hclosed (.single hquote h)
      rw [hread _ fun h => not_startsPair_append_space (hfront h) more, hread t hfront,
        readQuoted_append_of_closed hc hbody hend]
  · rw [read_of_isWordChar hword] at hend
    have hspace : isWordChar ' ' = false := by decide
    have hdrop : (t ++ ' ' :: more).dropWhile isWordChar = ' ' :: more := by
      simp [List.dropWhile_append, show t.dropWhile isWordChar = [] from hend, hspace]
    rw [read_of_isWordChar hword, read_of_isWordChar hword, takeWhile_append_of_stop t hspace, hdrop]

/-- A token ends where it did when a space follows the text, unless it is a string without an end. -/
theorem read_append_space {c : Char} {body rest : Text} {token : Token} (hread : read c (body ++ rest) = (token, rest))
    (hclosed : ¬UnendedString (c :: body)) (more : Text) :
    read c (body ++ (rest ++ ' ' :: more)) = (token, rest ++ ' ' :: more) := by
  have hcut := read_cut c (body ++ rest) (' ' :: more)
  rw [hread, List.append_assoc] at hcut
  rcases hcut with hsame | ⟨hend, -⟩
  · exact hsame
  · obtain rfl : rest = [] := hend
    rw [List.append_nil] at hread
    have hspace := read_append_space_of_end (by rw [hread]) hclosed more
    rwa [hread] at hspace

end Token

theorem Lexeme.shift_shift (m n : Nat) (x : Lexeme) : (x.shift n).shift m = x.shift (m + n) := by
  simp only [shift, Nat.add_assoc]

section

variable {blanks : Text} {c : Char} {body rest : Text} {token : Token}

theorem tokens_blanks_append (hblanks : blanks.IsBlanks) (t : Text) :
    tokens (blanks ++ t) = (tokens t).map (Lexeme.shift blanks.bytes) := by
  rw [tokens, tokensFrom_blanks 0 hblanks, Nat.zero_add]
  exact tokensFrom_shift blanks.bytes 0 t

theorem tokens_read (hblanks : blanks.IsBlanks) (hc : Text.isBlank c = false)
    (hread : Token.read c (body ++ rest) = (token, rest)) :
    tokens (blanks ++ (c :: body ++ rest)) =
      ⟨token, blanks.bytes, blanks.bytes + Text.bytes (c :: body)⟩ ::
        (tokens rest).map (Lexeme.shift (blanks ++ c :: body).bytes) := by
  rw [tokens, tokensFrom_blanks 0 hblanks, List.cons_append, tokensFrom_read _ hc hread, Nat.zero_add,
    Text.bytes_append]
  exact congrArg _ (tokensFrom_shift _ 0 rest)

theorem Text.StringsClosed.of_read (h : Text.StringsClosed (blanks ++ (c :: body ++ rest))) (hblanks : blanks.IsBlanks)
    (hc : Text.isBlank c = false) (hread : Token.read c (body ++ rest) = (token, rest)) :
    ¬UnendedString (c :: body) ∧ rest.StringsClosed := by
  rw [StringsClosed, tokens_read hblanks hc hread, List.forall_mem_cons, slice_append] at h
  refine ⟨h.1, fun x hx => ?_⟩
  have hclosed := h.2 _ (List.mem_map_of_mem hx)
  rwa [← List.append_assoc, Lexeme.start_shift, Lexeme.stop_shift, slice_append_left] at hclosed

end

theorem tokens_append_space {t : Text} (hclosed : t.StringsClosed) (more : Text) :
    tokens (t ++ ' ' :: more) = tokens t ++ (tokens more).map (Lexeme.shift (t.bytes + 1)) := by
  -- along the tokens of the text, wherever they start
  obtain ⟨start, xs, h⟩ : ∃ start xs, Spans start t xs := ⟨0, tokens t, spans_tokens t⟩
  induction h with
  | @blank start blanks hblanks =>
      have hspaced : (blanks ++ [' ']).IsBlanks := by
        rintro c hc
        rcases List.mem_append.mp hc with hc | hc
        · exact hblanks c hc
        · exact List.mem_singleton.mp hc ▸ rfl
      have hnil : tokens blanks = [] := by
        have h := tokens_blanks_append hblanks []
        rwa [List.append_nil, tokens, tokens, tokensFrom, List.map_nil] at h
      rw [List.append_cons, tokens_blanks_append hspaced, hnil, Text.bytes_append]
      rfl
  | @token start blanks c body rest token xs hblanks hc hread h ih =>
      obtain ⟨hstring, hrest⟩ := hclosed.of_read hblanks hc hread
      have hspace := Token.read_append_space hread hstring more
      have hcut : blanks ++ (c :: body ++ rest) ++ ' ' :: more = blanks ++ (c :: body ++ (rest ++ ' ' :: more)) := by
        simp only [List.append_assoc]
      rw [hcut, tokens_read hblanks hc hspace, tokens_read hblanks hc hread, ih hrest, List.map_append, List.map_map]
      have hshift : (Lexeme.shift (blanks ++ c :: body).bytes ∘ Lexeme.shift (rest.bytes + 1)) =
          Lexeme.shift ((blanks ++ (c :: body ++ rest)).bytes + 1) := by
        funext x
        rw [Function.comp_apply, Lexeme.shift_shift, ← Nat.add_assoc, ← Text.bytes_append, List.append_assoc]
      rw [hshift]
      rfl

/-- The tokens of a text stand at characters of it, in order and apart from each other. What stands at no token is
blank, and a token with a blank in it is a string. Behind a space the tokens of another text go on, unless a string
has no end in front of it. -/
theorem tokens_spacing (t : Text) :
    (∀ x ∈ tokens t, t.HasSpan x.start x.stop) ∧
    (tokens t).Pairwise (fun x y => x.stop ≤ y.start) ∧
    (∀ (before : Text) (c : Char) (after : Text), t = before ++ c :: after →
      (∀ x ∈ tokens t, ¬(x.start ≤ before.bytes ∧ before.bytes < x.stop)) → Text.isBlank c = true) ∧
    (∀ x ∈ tokens t, ¬x.token.IsString → ∀ c ∈ t.slice x.start x.stop, Text.isBlank c = false) ∧
    (t.StringsClosed → ∀ more : Text,
      tokens (t ++ ' ' :: more) = tokens t ++ (tokens more).map (Lexeme.shift (t.bytes + 1))) := by
  refine ⟨fun x hx => Text.hasSpan_of_mem hx, (Access.placed_tokens t).ordered, ?_, ?_, tokens_append_space⟩
  · intro before c after ht houtside
    refine (spans_tokens t).isBlank_of_outside ht fun x hx hle => ?_
    have hout := houtside x hx
    omega
  · intro x hx hstring
    obtain ⟨before, c, body, after, rfl, hstart, hstop, hc, hread⟩ := (spans_tokens t).exists_read hx
    rw [hstop, hstart, Nat.zero_add, Text.slice_append]
    exact Token.isBlank_of_mem_read hc hread hstring

theorem tokens_spacing_arrow :
    Text.StringsClosed "'b' <".toList ∧
      tokens ("'b' <".toList ++ ' ' :: "> c".toList) =
        [⟨.str ['b'], 0, 3⟩, ⟨.op .backward, 4, 5⟩, ⟨.op .forward, 6, 7⟩, ⟨.word ['c'], 8, 9⟩] := by
  have htokens : tokens "'b' <".toList = [⟨.str ['b'], 0, 3⟩, ⟨.op .backward, 4, 5⟩] := by decide +kernel
  have hclosed : Text.StringsClosed "'b' <".toList := by
    rw [Text.StringsClosed, htokens, List.forall_mem_cons, List.forall_mem_singleton]
    refine ⟨?_, ?_⟩
    · rintro (⟨-, hbody⟩)
      exact (ClosedBy.char (by decide) (by decide) .quote).not_unclosed (by decide) hbody
    · rintro (⟨hquote, -⟩)
      exact absurd hquote (by decide)
  refine ⟨hclosed, ((tokens_spacing _).2.2.2.2 hclosed _).trans ?_⟩
  rw [htokens]
  decide +kernel

end SchemaDiagram
