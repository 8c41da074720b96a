import SchemaDiagram.Proofs.Access.Token
import SchemaDiagram.Proofs.Text.Blank

/-! # Spans of tokens

A text is blanks, a token, and what stands behind the token, over and over again. So every token has characters
of its own, and nothing but blanks stands between neighbours.
-/
namespace SchemaDiagram

open Text (IsBlanks)

theorem tokensFrom_blanks (start : Nat) {blanks : Text} (h : IsBlanks blanks) (t : Text) :
    tokensFrom start (blanks ++ t) = tokensFrom (start + blanks.bytes) t := by
  induction blanks generalizing start with
  | nil => rfl
  | cons c blanks ih =>
      rw [List.cons_append, tokensFrom_blank _ (h c List.mem_cons_self),
        ih _ fun d hd => h d (List.mem_cons_of_mem c hd), Text.bytes_cons, Nat.add_assoc]

/-- The tokens of a text that starts at byte `start`, with the characters of each. -/
inductive Spans : Nat → Text → List Lexeme → Prop
  | blank {start blanks} (h : IsBlanks blanks) : Spans start blanks []
  | token {start blanks c body rest token xs} (hb : IsBlanks blanks) (hc : Text.isBlank c = false)
      (hread : Token.read c (body ++ rest) = (token, rest))
      (h : Spans (start + Text.bytes (blanks ++ c :: body)) rest xs) :
      Spans start (blanks ++ (c :: body ++ rest))
        (⟨token, start + Text.bytes blanks, start + Text.bytes (blanks ++ c :: body)⟩ :: xs)

theorem spans_tokensFrom (start : Nat) (t : Text) : Spans start t (tokensFrom start t) := by
  induction hn : t.length using Nat.strongRecOn generalizing start t with
  | ind n ih =>
      subst hn
      have hblanks : IsBlanks (t.takeWhile Text.isBlank) := fun c hc => List.all_eq_true.mp List.all_takeWhile c hc
      have hcut : t.takeWhile Text.isBlank ++ t.dropWhile Text.isBlank = t := List.takeWhile_append_dropWhile
      rw [Access.tokensFrom_skip]
      generalize t.takeWhile Text.isBlank = blanks at hblanks hcut
      cases hrest : t.dropWhile Text.isBlank with
      | nil =>
          rw [hrest, List.append_nil] at hcut
          subst hcut
          simpa [tokensFrom] using Spans.blank hblanks
      | cons c behind =>
          have hc : Text.isBlank c = false := by
            have hhead := List.head?_dropWhile_not Text.isBlank t
            rw [hrest] at hhead
            simpa using hhead
          obtain ⟨body, hbody⟩ := Token.read_suffix c behind
          generalize hread : Token.read c behind = read at hbody
          obtain ⟨token, rest⟩ := read
          obtain rfl : body ++ rest = behind := hbody
          rw [hrest] at hcut
          subst hcut
          rw [tokensFrom_read _ hc hread, Nat.add_assoc, ← Text.bytes_append]
          exact .token hblanks hc hread (ih _ (by simp; omega) _ _ rfl)

theorem spans_tokens (t : Text) : Spans 0 t (tokens t) := spans_tokensFrom 0 t

/-- A word has word characters only, and these are its text. -/
theorem Token.eq_of_read_eq_word {c : Char} {body rest w : Text} (h : Token.read c (body ++ rest) = (.word w, rest)) :
    c :: body = w ∧ ∀ d ∈ w, isWordChar d = true := by
  have hword : isWordChar c = true := isWordChar_of_read_eq_word (by rw [h])
  rw [read_of_isWordChar hword, Prod.mk.injEq] at h
  obtain ⟨htoken, hdrop⟩ := h
  have hbody : (body ++ rest).takeWhile isWordChar = body := by
    have hcut : (body ++ rest).takeWhile isWordChar ++ (body ++ rest).dropWhile isWordChar = body ++ rest :=
      List.takeWhile_append_dropWhile
    rw [hdrop] at hcut
    exact List.append_cancel_right hcut
  rw [hbody] at htoken
  obtain rfl : c :: body = w := Token.word.inj htoken
  refine ⟨rfl, List.forall_mem_cons.mpr ⟨hword, fun d hd => ?_⟩⟩
  rw [← hbody] at hd
  exact List.all_eq_true.mp List.all_takeWhile d hd

namespace Spans

variable {start : Nat} {t : Text} {xs : List Lexeme}

theorem start_lt_stop (h : Spans start t xs) {x : Lexeme} (hx : x ∈ xs) : x.start < x.stop := by
  induction h with
  | blank => cases hx
  | @token _ _ c _ _ _ _ _ _ _ _ ih =>
      rcases List.mem_cons.mp hx with rfl | hx
      · have hpos := c.utf8Size_pos
        simp only [Text.bytes_append, Text.bytes_cons]
        omega
      · exact ih hx

/-- The first token starts with the text, unless the text starts with a blank. -/
theorem start_eq {x : Lexeme} (h : Spans start t (x :: xs)) (ht : ∃ c, t.head? = some c ∧ Text.isBlank c = false) :
    x.start = start := by
  obtain ⟨d, hd, hblank⟩ := ht
  cases h with
  | @token _ blanks c body rest _ _ hb =>
      cases blanks with
      | nil => rfl
      | cons b blanks =>
          cases hd
          exact absurd (hb d List.mem_cons_self) (by simp [hblank])

/-- Between a word at the start of the text and the next token there are blanks only. -/
theorem exists_blanks_of_word {x y : Lexeme} (h : Spans start t (x :: y :: xs)) {w : Text} (hw : x.token = .word w)
    (ht : ∃ c, t.head? = some c ∧ Text.isBlank c = false) :
    ∃ blanks rest, t = w ++ (blanks ++ rest) ∧ (∀ c ∈ w, isWordChar c = true) ∧ IsBlanks blanks ∧
      y.start = start + Text.bytes (w ++ blanks) := by
  have hstart := h.start_eq ht
  cases h with
  | @token _ blanks c body rest _ _ hb hc hread hrest =>
      have hnil : blanks = [] := Text.eq_nil_of_bytes_eq_zero (by simpa using hstart)
      subst hnil
      obtain ⟨rfl, hall⟩ := Token.eq_of_read_eq_word (hread.trans (congrArg (·, rest) hw))
      cases hrest with
      | @token _ between d more behind _ _ hbetween =>
          refine ⟨between, d :: more ++ behind, rfl, hall, hbetween, ?_⟩
          simp only [List.nil_append, Text.bytes_append, Nat.add_assoc]

end Spans

/-! ## Spans of several tokens -/

theorem Text.prefix_of_bytes_le {t a b : Text} (ha : a <+: t) (hb : b <+: t) (h : a.bytes ≤ b.bytes) : a <+: b := by
  rcases List.prefix_or_prefix_of_prefix ha hb with hab | ⟨part, rfl⟩
  · exact hab
  · have hpart : part = [] := eq_nil_of_bytes_eq_zero (by rw [bytes_append] at h; omega)
    exact ⟨[], by simp [hpart]⟩

/-- The bytes from `start` up to `stop` are characters of the text, one at least. -/
structure Text.HasSpan (t : Text) (start stop : Nat) : Prop where
  start_boundary : t.IsBoundary start
  stop_boundary : t.IsBoundary stop
  lt : start < stop

/-- The parts that a span cuts a text into. -/
theorem Text.HasSpan.exists_cut {t : Text} {start stop : Nat} (h : t.HasSpan start stop) :
    ∃ before part after, t = before ++ (part ++ after) ∧ start = before.bytes ∧ stop = (before ++ part).bytes ∧
      t.slice start stop = part := by
  obtain ⟨a, b, ht, ha⟩ := h.start_boundary
  obtain ⟨c, d, htc, hc⟩ := h.stop_boundary
  have hlt := h.lt
  obtain ⟨part, rfl⟩ : a <+: c := prefix_of_bytes_le ⟨b, ht.symm⟩ ⟨d, htc.symm⟩ (by omega)
  rw [List.append_assoc] at htc
  refine ⟨a, part, d, htc, ha.symm, hc.symm, ?_⟩
  rw [htc, ← hc, ← ha, bytes_append, slice_append]

/-- What stands from one token up to the end of a later one, or of the same. -/
theorem Text.hasSpan_of_sublist {t : Text} {x y : Lexeme} {xs : List Lexeme} (hsub : (x :: xs).Sublist (tokens t))
    (hy : y ∈ x :: xs) : t.HasSpan x.start y.stop := by
  have hplaced := (Access.placed_tokens t).sublist hsub
  have hlt : ∀ z ∈ x :: xs, z.start < z.stop := fun z hz => (spans_tokens t).start_lt_stop (hsub.subset hz)
  refine ⟨hplaced.start x List.mem_cons_self, hplaced.stop y hy, ?_⟩
  rcases List.mem_cons.mp hy with rfl | hmem
  · exact hlt y List.mem_cons_self
  · calc x.start
      _ < x.stop := hlt x List.mem_cons_self
      _ ≤ y.start := (List.pairwise_cons.mp hplaced.ordered).1 y hmem
      _ ≤ y.stop := hplaced.start_le y hy

theorem Text.hasSpan_of_mem {t : Text} {x : Lexeme} (hx : x ∈ tokens t) : t.HasSpan x.start x.stop :=
  hasSpan_of_sublist (List.singleton_sublist.mpr hx) List.mem_cons_self

end SchemaDiagram
