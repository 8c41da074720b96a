import SchemaDiagram.Proofs.Source.Span
import SchemaDiagram.Proofs.Source.Strings

/-! # Tokens of the front of a text

The front of a text has the tokens of the whole text, up to where it is cut off. Only a token that is longer than
one character can be torn by the cut; what is left of it is read as one token again.
-/
namespace SchemaDiagram

open Text (IsBlanks)

/-! ## Readers -/

/-- What a reader finds in the front of a text, and in the whole text, which goes on with `more`: it ends where it
did, unless it came to the end of the front. -/
def ReadsOn {α : Type} (more : Text) (front whole : α × Text) : Prop :=
  whole = (front.1, front.2 ++ more) ∨ front.2 = [] ∧ whole.2 <:+ more

theorem ReadsOn.map {α β : Type} {more : Text} {front whole : α × Text} (h : ReadsOn more front whole) (f : α → β) :
    ReadsOn more (f front.1, front.2) (f whole.1, whole.2) := by
  rcases h with rfl | h
  · exact .inl rfl
  · exact .inr h

theorem readQuoted_append {quote : Char} (hquote : quote ≠ '\\') (t more : Text) :
    ReadsOn more (readQuoted quote t) (readQuoted quote (t ++ more)) := by
  fun_induction readQuoted quote t with
  | case1 => exact .inr ⟨rfl, readQuoted_suffix quote more⟩
  | case2 c rest content after hread ih =>
      rw [hread] at ih
      exact ih.map (c :: ·)
  | case3 rest hlast =>
      refine .inl ?_
      rw [List.cons_append, readQuoted, if_pos rfl]
      exact fun _ _ h => absurd h hquote
  | case4 rest hlast =>
      -- a backslash that the text ends with stands for the first character of `more`
      cases rest with
      | cons d rest => exact absurd rfl (hlast d rest rfl)
      | nil =>
          cases more with
          | nil => exact .inr ⟨rfl, by simp [readQuoted, hquote.symm]⟩
          | cons d more => exact .inr ⟨rfl, (readQuoted_suffix quote more).trans (List.suffix_cons d more)⟩
  | case5 c rest hlast hc hback content after hread ih =>
      rw [hread] at ih
      rw [List.cons_append, readQuoted, if_neg hc, if_neg hback]
      · exact ih.map (c :: ·)
      · exact fun _ _ h => absurd h hback

theorem readTripleQuoted_append (t more : Text) :
    ReadsOn more (readTripleQuoted t) (readTripleQuoted (t ++ more)) := by
  fun_induction readTripleQuoted t with
  | case1 => exact .inr ⟨rfl, readTripleQuoted_suffix more⟩
  | case2 rest => exact .inl rfl
  | case3 c rest hstart content after hread ih =>
      by_cases hpair : c = '\'' ∧ StartsPair (rest ++ more)
      · -- the text ends in the mark that closes the string
        obtain ⟨rfl, behind, hbehind⟩ := hpair
        cases rest with
        | nil =>
            cases hread
            obtain rfl : more = '\'' :: '\'' :: behind := hbehind
            exact .inr ⟨rfl, ['\'', '\''], rfl⟩
        | cons d rest =>
            obtain ⟨rfl, hrest⟩ := List.cons.inj hbehind
            cases rest with
            | nil =>
                cases hread
                obtain rfl : more = '\'' :: behind := hrest
                exact .inr ⟨rfl, ['\''], rfl⟩
            | cons d rest =>
                obtain ⟨rfl, -⟩ := List.cons.inj hrest
                exact (hstart rest rfl rfl).elim
      · rw [hread] at ih
        rw [List.cons_append, readTripleQuoted]
        · exact ih.map (c :: ·)
        · exact fun behind hc hbehind => hpair ⟨hc, behind, hbehind⟩

namespace Token

/-- A token that may be longer than one character. -/
def IsLong : Token → Prop
  | word _ | str _ | backtick _ | op _ => True
  | _ => False

theorem read_cases (c : Char) :
    (∃ token, ∀ rest, read c rest = (token, rest)) ∨ c = '<' ∨ isQuote c = true ∨ isWordChar c = true := by
  by_cases hmark : c ∈ ['[', ']', '(', ')', ',', ':', '.', '-', '>', '<', '\'', '"', '\x60']
  · simp only [List.mem_cons, List.not_mem_nil, or_false] at hmark
    rcases hmark with rfl | rfl | rfl | rfl | rfl | rfl | rfl | rfl | rfl | rfl | hquote
    case inr.inr.inr.inr.inr.inr.inr.inr.inr.inl => exact .inr (.inl rfl)
    case inr.inr.inr.inr.inr.inr.inr.inr.inr.inr => exact .inr (.inr (.inl (by simpa [isQuote, or_assoc] using hquote)))
    all_goals exact .inl ⟨_, fun _ => rfl⟩
  · by_cases hword : isWordChar c = true
    · exact .inr (.inr (.inr hword))
    · refine .inl ⟨.other c, fun rest => ?_⟩
      unfold read
      split <;> simp_all

/-- A string is read up to its quote, unless three apostrophes open it. -/
theorem read_quoted {c : Char} (hc : isQuote c = true) :
    c ≠ '\\' ∧ ∃ make : Text → Token, (∀ content, (make content).IsLong) ∧
      ∀ rest, (c = '\'' → ¬StartsPair rest) → read c rest = (make (readQuoted c rest).1, (readQuoted c rest).2) := by
  simp only [isQuote, Bool.or_eq_true, beq_iff_eq] at hc
  rcases hc with (rfl | rfl) | rfl
  · refine ⟨by decide, .str, fun _ => trivial, fun rest hrest => ?_⟩
    rw [read]
    exact fun behind h => hrest rfl ⟨behind, h⟩
  · exact ⟨by decide, .str, fun _ => trivial, fun rest _ => rfl⟩
  · exact ⟨by decide, .backtick, fun _ => trivial, fun rest _ => rfl⟩

theorem read_pair (rest : Text) : read '\'' ('\'' :: '\'' :: rest) =
    (.str (readTripleQuoted rest).1, (readTripleQuoted rest).2) := rfl

/-- A token ends where it did when more follows, unless it ends the text. Then it may go on. -/
theorem read_append (c : Char) (t more : Text) : ReadsOn more (read c t) (read c (t ++ more)) := by
  rcases read_cases c with ⟨token, hread⟩ | rfl | hquote | hword
  · exact .inl (by rw [hread, hread])
  · cases t with
    | nil => exact .inr ⟨rfl, read_suffix '<' more⟩
    | cons d t =>
        by_cases hd : d = '>'
        · subst hd
          exact .inl rfl
        · have hsingle : ∀ rest, read '<' (d :: rest) = (.op .backward, d :: rest) := fun rest => by
            rw [read]
            rintro rest ⟨⟩
            exact hd rfl
          exact .inl (by rw [List.cons_append, hsingle, hsingle]; rfl)
  · obtain ⟨hc, make, -, hread⟩ := read_quoted hquote
    by_cases hpair : c = '\'' ∧ StartsPair (t ++ more)
    · obtain ⟨rfl, behind, hbehind⟩ := hpair
      rcases t with - | ⟨d, - | ⟨d', t⟩⟩
      · obtain rfl : more = '\'' :: '\'' :: behind := hbehind
        exact .inr ⟨rfl, read_suffix _ _⟩
      · obtain ⟨rfl, rfl⟩ : d = '\'' ∧ more = '\'' :: behind := List.cons.inj hbehind
        exact .inr ⟨rfl, (readTripleQuoted_suffix behind).trans (List.suffix_cons _ _)⟩
      · obtain ⟨rfl, hrest⟩ := List.cons.inj hbehind
        obtain ⟨rfl, rfl⟩ := List.cons.inj hrest
        exact (readTripleQuoted_append t more).map Token.str
    · have hfront : c = '\'' → ¬StartsPair t := by
        rintro h ⟨behind, rfl⟩
        exact hpair ⟨h, behind ++ more, rfl⟩
      rw [hread _ fun h hp => hpair ⟨h, hp⟩, hread _ hfront]
      exact (readQuoted_append hc t more).map make
  · rw [read_of_isWordChar hword, read_of_isWordChar hword]
    cases hdrop : t.dropWhile isWordChar with
    | nil =>
        rw [List.dropWhile_append, hdrop]
        exact .inr ⟨rfl, List.dropWhile_suffix _⟩
    | cons d rest =>
        have hlength := congrArg List.length (List.takeWhile_append_dropWhile (p := isWordChar) (l := t))
        rw [List.length_append, hdrop, List.length_cons] at hlength
        refine .inl ?_
        rw [List.takeWhile_append, if_neg (by omega), List.dropWhile_append, hdrop]
        rfl

theorem isLong_read {c : Char} (hc : c = '<' ∨ isQuote c = true ∨ isWordChar c = true) (rest : Text) :
    (read c rest).1.IsLong := by
  rcases hc with rfl | hquote | hword
  · by_cases hd : ∃ more, rest = '>' :: more
    · obtain ⟨more, rfl⟩ := hd
      trivial
    · rw [read]
      · trivial
      · exact fun more h => hd ⟨more, h⟩
  · obtain ⟨-, make, hmake, hread⟩ := read_quoted hquote
    by_cases hpair : c = '\'' ∧ StartsPair rest
    · obtain ⟨rfl, behind, rfl⟩ := hpair
      trivial
    · rw [hread rest fun h hp => hpair ⟨h, hp⟩]
      exact hmake _
  · rw [read_of_isWordChar hword]
    trivial

/-- A token of the text stays the same when more follows, unless it is a long one that ends the text. -/
theorem read_cut (c : Char) (t more : Text) :
    read c (t ++ more) = ((read c t).1, (read c t).2 ++ more) ∨
      (read c t).2 = [] ∧ (read c (t ++ more)).2 <:+ more ∧ ∀ rest, (read c rest).1.IsLong := by
  rcases read_cases c with ⟨token, hread⟩ | hlong
  · exact .inl (by rw [hread, hread])
  · rcases read_append c t more with hsame | ⟨hend, hmore⟩
    · exact .inl hsame
    · exact .inr ⟨hend, hmore, isLong_read hlong⟩

end Token

/-! ## The front of the tokens -/

/-- `xs` are the tokens of a text up to byte `stop`, and `ys` are the tokens of the text that goes on behind it. -/
inductive CutAt (stop : Nat) : List Lexeme → List Lexeme → Prop
  | behind {ys} (h : ∀ y ∈ ys, stop ≤ y.start) : CutAt stop [] ys
  | torn {x y ys} (hx : x.token.IsLong) (hy : y.token.IsLong) (h : ∀ z ∈ ys, stop ≤ z.start) :
      CutAt stop [x] (y :: ys)
  | same {x xs ys} (h : CutAt stop xs ys) : CutAt stop (x :: xs) (x :: ys)

theorem le_start_of_mem_tokensFrom {start : Nat} {t : Text} {x : Lexeme} (hx : x ∈ tokensFrom start t) :
    start ≤ x.start := by
  have h := spans_tokensFrom start t
  generalize tokensFrom start t = xs at h hx
  induction h with
  | blank => cases hx
  | token hblanks hc hread h ih =>
      rcases List.mem_cons.mp hx with rfl | hx
      · exact Nat.le_add_right _ _
      · exact Nat.le_trans (Nat.le_add_right _ _) (ih hx)

theorem Spans.eq_nil {start : Nat} {t : Text} {xs : List Lexeme} (h : Spans start t xs) (ht : t = []) : xs = [] := by
  cases h with
  | blank => rfl
  | token => simp at ht

theorem Spans.cutAt {start : Nat} {t : Text} {xs : List Lexeme} (h : Spans start t xs) (more : Text) :
    CutAt (start + t.bytes) xs (tokensFrom start (t ++ more)) := by
  induction h with
  | @blank start blanks hblanks =>
      rw [tokensFrom_blanks start hblanks]
      exact .behind fun y hy => le_start_of_mem_tokensFrom hy
  | @token start blanks c body rest token xs hblanks hc hread h ih =>
      have hbytes : start + Text.bytes (blanks ++ (c :: body ++ rest)) =
          start + Text.bytes (blanks ++ c :: body) + Text.bytes rest := by
        simp only [Text.bytes_append, Nat.add_assoc]
      have hcut : blanks ++ (c :: body ++ rest) ++ more = blanks ++ (c :: (body ++ rest ++ more)) := by simp
      have hstop : start + blanks.bytes + Text.bytes (c :: body) = start + Text.bytes (blanks ++ c :: body) := by
        rw [Text.bytes_append, Nat.add_assoc]
      rw [hbytes, hcut, tokensFrom_blanks start hblanks]
      have happend := Token.read_cut c (body ++ rest) more
      rw [hread] at happend
      rcases happend with hsame | ⟨hend, ⟨front, hfront⟩, hlong⟩
      · rw [List.append_assoc] at hsame ⊢
        rw [tokensFrom_read _ hc hsame, hstop]
        exact .same ih
      · obtain rfl : rest = [] := hend
        obtain rfl := h.eq_nil rfl
        -- the token takes `front` along from what follows
        obtain ⟨token', behind, hwhole⟩ : ∃ token' behind, Token.read c (body ++ [] ++ more) = (token', behind) :=
          ⟨_, _, rfl⟩
        have hx := hlong (body ++ [])
        have hy := hlong (body ++ [] ++ more)
        rw [hread] at hx
        rw [hwhole] at hy hfront
        subst hfront
        rw [List.append_nil, ← List.append_assoc] at hwhole ⊢
        rw [tokensFrom_read _ hc hwhole]
        refine .torn hx hy fun z hz => Nat.le_trans ?_ (le_start_of_mem_tokensFrom hz)
        simp only [Text.bytes_append, Text.bytes_cons, Text.bytes_nil]
        omega

theorem cutAt_tokens (t more : Text) : CutAt t.bytes (tokens t) (tokens (t ++ more)) := by
  simpa [tokens] using (spans_tokensFrom 0 t).cutAt more

namespace CutAt

variable {stop : Nat} {xs ys : List Lexeme}

theorem append (h : CutAt stop xs ys) (front : List Lexeme) : CutAt stop (front ++ xs) (front ++ ys) := by
  induction front with
  | nil => exact h
  | cons x front ih => exact .same ih

/-- A token of one character in front of the cut is there in both, behind the same tokens. -/
theorem exists_of_append {front : List Lexeme} {x : Lexeme} (h : CutAt stop xs (front ++ x :: ys))
    (hlong : ¬x.token.IsLong) (hx : x.start < stop) : ∃ more, xs = front ++ x :: more ∧ CutAt stop more ys := by
  induction front generalizing xs with
  | nil =>
      cases h with
      | behind h => exact absurd (h x List.mem_cons_self) (Nat.not_le_of_lt hx)
      | torn _ hy => exact absurd hy hlong
      | same h => exact ⟨_, rfl, h⟩
  | cons y front ih =>
      have hmem : x ∈ front ++ x :: ys := by simp
      cases h with
      | behind h => exact absurd (h x (List.mem_cons_of_mem y hmem)) (Nat.not_le_of_lt hx)
      | torn _ _ h => exact absurd (h x hmem) (Nat.not_le_of_lt hx)
      | same h =>
          obtain ⟨more, rfl, hmore⟩ := ih h
          exact ⟨more, rfl, hmore⟩

end CutAt
end SchemaDiagram
