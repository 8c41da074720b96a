import SchemaDiagram.Proofs.Access.Basic
import SchemaDiagram.Proofs.Source.Token

/-! # Checked reading of tokens

Tokens are read with a cursor: words and triple-quoted strings are slices of the text from the byte where the
cursor stood up to the byte where it stands. A cursor stands between characters, and so do the tokens, one
behind the other.
-/
namespace SchemaDiagram

/-! ## What is left of a text -/

theorem readQuoted_suffix (quote : Char) (t : Text) : (readQuoted quote t).2 <:+ t := by
  fun_induction readQuoted quote t with
  | case1 => exact List.suffix_refl _
  | case2 c rest content after hread ih =>
      rw [hread] at ih
      exact (ih.trans (List.suffix_cons _ _)).trans (List.suffix_cons _ _)
  | case3 => exact List.suffix_cons _ _
  | case4 => exact List.nil_suffix
  | case5 c rest _ _ _ content after hread ih =>
      rw [hread] at ih
      exact ih.trans (List.suffix_cons _ _)

theorem readTripleQuoted_suffix (t : Text) : (readTripleQuoted t).2 <:+ t := by
  fun_induction readTripleQuoted t with
  | case1 => exact List.suffix_refl _
  | case2 rest => exact ⟨['\'', '\'', '\''], rfl⟩
  | case3 c rest _ content after hread ih =>
      rw [hread] at ih
      exact ih.trans (List.suffix_cons _ _)

theorem Token.read_suffix (c : Char) (rest : Text) : (Token.read c rest).2 <:+ rest := by
  unfold Token.read
  split <;> try exact List.suffix_refl _
  · exact List.suffix_cons _ _
  · exact ((readTripleQuoted_suffix _).trans (List.suffix_cons _ _)).trans (List.suffix_cons _ _)
  · exact readQuoted_suffix _ _
  · exact readQuoted_suffix _ _
  · exact readQuoted_suffix _ _
  · split
    · exact List.dropWhile_suffix _
    · exact List.suffix_refl _

namespace Access

/-! ## Cursors -/

/-- A place between two characters of a text: its byte, and what stands behind it. -/
structure Cursor where
  offset : Nat
  rest : Text

namespace Cursor

def At (k : Cursor) (t : Text) : Prop := ∃ before : Text, t = before ++ k.rest ∧ k.offset = before.bytes

theorem at_start (t : Text) : At ⟨0, t⟩ t := ⟨[], rfl, rfl⟩

def next (k : Cursor) : Cursor :=
  match k.rest with
  | [] => k
  | c :: rest => ⟨k.offset + c.utf8Size, rest⟩

/-- Behind the characters that are read as long as the byte and the character there have a property. -/
def skip (p : Nat → Char → Bool) : Nat → Text → Cursor
  | offset, [] => ⟨offset, []⟩
  | offset, c :: rest => if p offset c then skip p (offset + c.utf8Size) rest else ⟨offset, c :: rest⟩

/-- In front of the characters `after`. -/
def moveTo (k : Cursor) (after : Text) : Cursor := ⟨k.offset + (k.rest.bytes - Text.bytes after), after⟩

variable {k : Cursor} {t : Text}

theorem moveTo_eq {part after : Text} (h : k.rest = part ++ after) :
    k.moveTo after = ⟨k.offset + part.bytes, after⟩ := by
  rw [moveTo, h, Text.bytes_append, Nat.add_sub_cancel_right]

theorem moveTo_cons {rest after : Text} (h : after <:+ rest) (offset : Nat) (c : Char) :
    moveTo ⟨offset + c.utf8Size, rest⟩ after = moveTo ⟨offset, c :: rest⟩ after := by
  obtain ⟨part, rfl⟩ := h
  have hwhole : moveTo ⟨offset, c :: (part ++ after)⟩ after = ⟨offset + Text.bytes (c :: part), after⟩ := moveTo_eq rfl
  rw [hwhole, moveTo_eq rfl, Text.bytes_cons, Nat.add_assoc]

theorem At.boundary (h : k.At t) : t.IsBoundary k.offset := by
  obtain ⟨before, rfl, hoffset⟩ := h
  exact ⟨before, k.rest, rfl, hoffset.symm⟩

theorem At.moveTo (h : k.At t) {after : Text} (hafter : after <:+ k.rest) : (k.moveTo after).At t := by
  obtain ⟨offset, rest⟩ := k
  obtain ⟨before, rfl, rfl⟩ := h
  obtain ⟨part, rfl⟩ := hafter
  rw [moveTo_eq rfl]
  exact ⟨before ++ part, by simp, (Text.bytes_append before part).symm⟩

theorem skip_append_of_lt (offset : Nat) (part after : Text) :
    skip (fun n _ => decide (n < offset + part.bytes)) offset (part ++ after) = ⟨offset + part.bytes, after⟩ := by
  induction part generalizing offset with
  | nil => cases after <;> simp [skip]
  | cons c part ih =>
      have hpos := c.utf8Size_pos
      have hlt : offset < offset + Text.bytes (c :: part) := by
        rw [Text.bytes_cons]
        omega
      rw [List.cons_append, skip, if_pos (decide_eq_true hlt), Text.bytes_cons, ← Nat.add_assoc, ih]

theorem skip_eq (p : Char → Bool) (offset : Nat) (t : Text) :
    skip (fun _ c => p c) offset t = ⟨offset + Text.bytes (t.takeWhile p), t.dropWhile p⟩ := by
  induction t generalizing offset with
  | nil => rfl
  | cons c rest ih =>
      rw [skip]
      cases hc : p c with
      | true => simp [hc, ih, Nat.add_assoc]
      | false => simp [hc]

theorem length_skip_le (p : Nat → Char → Bool) (offset : Nat) (t : Text) :
    (skip p offset t).rest.length ≤ t.length := by
  fun_induction skip p offset t with
  | case1 => exact Nat.le_refl _
  | case2 offset c rest _ ih => exact Nat.le_succ_of_le ih
  | case3 => exact Nat.le_refl _

theorem length_next_le (k : Cursor) : k.next.rest.length ≤ k.rest.length := by
  rw [next]
  split
  · exact Nat.le_refl _
  · next hrest => simp [hrest]

end Cursor

/-! ## Triple-quoted strings -/

/-- The first byte with a property of what stands from it on. -/
def find? (p : Text → Bool) : Text → Option Nat
  | [] => none
  | c :: rest => if p (c :: rest) then some 0 else (find? p rest).map (c.utf8Size + ·)

def startsTriple (t : Text) : Bool := ['\'', '\'', '\''].isPrefixOf t

theorem startsTriple_iff {t : Text} : startsTriple t = true ↔ ∃ rest, t = '\'' :: '\'' :: '\'' :: rest := by
  rw [startsTriple, List.isPrefixOf_iff_prefix]
  exact ⟨fun ⟨rest, h⟩ => ⟨rest, h.symm⟩, fun ⟨rest, h⟩ => ⟨rest, h.symm⟩⟩

/-- The content of a triple-quoted string from the cursor on, and the cursor behind the string. -/
def readTriple (t : Text) (k : Cursor) : Access (Text × Cursor) := do
  let rest ← fromByte t k.offset
  let length := (find? startsTriple rest).getD rest.bytes
  let content ← upTo rest length
  let stop := k.offset + min (length + 3) rest.bytes
  return (content, Cursor.skip (fun offset _ => offset < stop) k.offset k.rest)

/-- Behind the content of a triple-quoted string stands its mark, if the string does not run to the end. -/
theorem exists_readTripleQuoted (t : Text) : ∃ content mark after : Text,
    t = content ++ (mark ++ after) ∧ readTripleQuoted t = (content, after) ∧
      (find? startsTriple t).getD t.bytes = content.bytes ∧
      min (content.bytes + 3) t.bytes = (content ++ mark).bytes := by
  have hquote : '\''.utf8Size = 1 := by decide
  fun_induction readTripleQuoted t with
  | case1 => exact ⟨[], [], [], rfl, rfl, rfl, rfl⟩
  | case2 rest =>
      refine ⟨[], ['\'', '\'', '\''], rest, rfl, rfl, rfl, ?_⟩
      simp only [Text.bytes_cons, Text.bytes_nil, List.nil_append, hquote]
      omega
  | case3 c rest hstart content' after' hread ih =>
      have hno : ¬startsTriple (c :: rest) = true := fun h => by
        obtain ⟨more, hmore⟩ := startsTriple_iff.mp h
        obtain ⟨rfl, rfl⟩ := List.cons.inj hmore
        exact hstart more rfl rfl
      obtain ⟨content, mark, after, hrest, heq, hfind, hmin⟩ := ih
      obtain ⟨rfl, rfl⟩ := Prod.mk.inj (hread.symm.trans heq)
      refine ⟨c :: content', mark, after', congrArg (c :: ·) hrest, rfl, ?_, ?_⟩
      · rw [find?, if_neg hno, Text.bytes_cons, Text.bytes_cons, ← hfind]
        cases find? startsTriple rest <;> rfl
      · rw [List.cons_append, Text.bytes_cons, Text.bytes_cons, Text.bytes_cons, ← hmin]
        omega

theorem readTriple_eq {t : Text} {k : Cursor} (h : k.At t) :
    readTriple t k = .ok ((readTripleQuoted k.rest).1, k.moveTo (readTripleQuoted k.rest).2) := by
  obtain ⟨before, rfl, hoffset⟩ := h
  obtain ⟨content, mark, after, hrest, hread, hfind, hmin⟩ := exists_readTripleQuoted k.rest
  have hsplit : k.rest = (content ++ mark) ++ after := by rw [hrest, List.append_assoc]
  have hupTo : upTo k.rest (Text.bytes content) = .ok content := by
    rw [hrest, upTo_append]
  have hskip := Cursor.skip_append_of_lt k.offset (content ++ mark) after
  have hmove : k.moveTo after = _ := Cursor.moveTo_eq hsplit
  rw [← hsplit] at hskip
  simp only [readTriple, hoffset ▸ fromByte_eq before k.rest, ok_bind, hfind, hupTo, hmin, hskip, hread, pure_eq_ok,
    ← hmove]

theorem length_readTriple_le {t content : Text} {k k' : Cursor} (h : readTriple t k = .ok (content, k')) :
    k'.rest.length ≤ k.rest.length := by
  obtain ⟨rest, -, h⟩ := bind_eq_ok_iff.mp h
  obtain ⟨content', -, h⟩ := bind_eq_ok_iff.mp h
  obtain ⟨-, rfl⟩ := Prod.mk.inj (Except.ok.inj h)
  exact Cursor.length_skip_le _ _ _

/-! ## Tokens -/

/-- The token that starts with `c` at byte `start`, from the cursor behind `c`, and the cursor behind it. -/
def readToken (t : Text) (start : Nat) (c : Char) (k : Cursor) : Access (Token × Cursor) := do
  if c = '\'' then
    if startsTriple (← fromByte t start) then
      let (content, k) ← readTriple t k.next.next
      return (.str content, k)
    else return ((Token.read c k.rest).1, k.moveTo (Token.read c k.rest).2)
  else if isWordChar c then
    let k := Cursor.skip (fun _ d => isWordChar d) k.offset k.rest
    return (.word (← slice t start k.offset), k)
  else return ((Token.read c k.rest).1, k.moveTo (Token.read c k.rest).2)

def nextToken (t : Text) (k : Cursor) : Access (Option (Lexeme × Cursor)) := do
  let k := Cursor.skip (fun _ c => Text.isBlank c) k.offset k.rest
  match k.rest with
  | [] => return none
  | c :: rest =>
    let (token, behind) ← readToken t k.offset c ⟨k.offset + c.utf8Size, rest⟩
    return some (⟨token, k.offset, behind.offset⟩, behind)

theorem readToken_eq {t rest : Text} {c : Char} {start : Nat} (h : Cursor.At ⟨start, c :: rest⟩ t) :
    readToken t start c ⟨start + c.utf8Size, rest⟩ =
      .ok ((Token.read c rest).1, Cursor.moveTo ⟨start, c :: rest⟩ (Token.read c rest).2) := by
  obtain ⟨before, rfl, rfl⟩ := h
  rw [readToken, ← Cursor.moveTo_cons (Token.read_suffix c rest)]
  split
  · next hc =>
      subst hc
      rw [fromByte_eq, ok_bind]
      split
      · next htriple =>
          obtain ⟨more, hmore⟩ := startsTriple_iff.mp htriple
          obtain rfl := (List.cons.inj hmore).2
          have hat : Cursor.At (Cursor.next (Cursor.next ⟨Text.bytes before + '\''.utf8Size, '\'' :: '\'' :: more⟩))
              (before ++ '\'' :: '\'' :: '\'' :: more) :=
            ⟨before ++ ['\'', '\'', '\''], by simp [Cursor.next], by simp [Cursor.next]; omega⟩
          have hsuffix := readTripleQuoted_suffix more
          rw [readTriple_eq hat]
          refine congrArg (fun k => Except.ok (Token.str (readTripleQuoted more).1, k)) (Eq.symm ?_)
          rw [Token.read, ← Cursor.moveTo_cons (hsuffix.trans (List.suffix_cons _ _)), ← Cursor.moveTo_cons hsuffix]
          rfl
      · rfl
  · split
    · next hword =>
        have hslice := slice_append before (c :: rest.takeWhile isWordChar) (rest.dropWhile isWordChar)
        rw [List.cons_append, List.takeWhile_append_dropWhile, Text.bytes_cons, ← Nat.add_assoc] at hslice
        have hmove := Cursor.moveTo_eq (k := ⟨Text.bytes before + c.utf8Size, rest⟩)
          (List.takeWhile_append_dropWhile (p := isWordChar)).symm
        simp only [Cursor.skip_eq, hslice, ok_bind, pure_eq_ok, Token.read_of_isWordChar hword, hmove]
    · rfl

theorem length_readToken_le {t : Text} {start : Nat} {c : Char} {k k' : Cursor} {token : Token}
    (h : readToken t start c k = .ok (token, k')) : k'.rest.length ≤ k.rest.length := by
  have hread : ∀ {x : Token × Cursor},
      Except.ok ((Token.read c k.rest).1, k.moveTo (Token.read c k.rest).2) = (.ok x : Access _) →
        x.2.rest.length ≤ k.rest.length := by
    rintro x ⟨⟩
    exact Token.read_length_le c k.rest
  rw [readToken] at h
  split at h
  · obtain ⟨behind, -, h⟩ := bind_eq_ok_iff.mp h
    split at h
    · obtain ⟨⟨content, last⟩, hread, h⟩ := map_eq_ok_iff.mp h
      cases h
      exact Nat.le_trans (length_readTriple_le hread)
        (Nat.le_trans (Cursor.length_next_le _) (Cursor.length_next_le _))
    · exact hread h
  · split at h
    · obtain ⟨word, -, h⟩ := map_eq_ok_iff.mp h
      cases h
      exact Cursor.length_skip_le _ _ _
    · exact hread h

theorem length_nextToken_lt {t : Text} {k k' : Cursor} {x : Lexeme} (h : nextToken t k = .ok (some (x, k'))) :
    k'.rest.length < k.rest.length := by
  have hskip := Cursor.length_skip_le (fun _ c => Text.isBlank c) k.offset k.rest
  rw [nextToken] at h
  split at h
  · cases h
  · next c rest hrest =>
      obtain ⟨⟨token, behind⟩, hread, h⟩ := map_eq_ok_iff.mp h
      cases h
      have hle := length_readToken_le hread
      rw [hrest, List.length_cons] at hskip
      exact Nat.lt_of_le_of_lt hle hskip

def readFrom (t : Text) (k : Cursor) : Access (List Lexeme) :=
  match _h : nextToken t k with
  | .ok (some (x, behind)) => do return x :: (← readFrom t behind)
  | .ok none => return []
  | .error fault => .error fault
termination_by k.rest.length
decreasing_by exact length_nextToken_lt ‹_›

def readTokens (t : Text) : Access (List Lexeme) := readFrom t ⟨0, t⟩

def readFirst (t : Text) : Access (Option Lexeme) := do
  return (← nextToken t ⟨0, t⟩).map Prod.fst

theorem tokensFrom_skip (offset : Nat) (t : Text) :
    tokensFrom offset t = tokensFrom (offset + Text.bytes (t.takeWhile Text.isBlank)) (t.dropWhile Text.isBlank) := by
  induction t generalizing offset with
  | nil => rfl
  | cons c rest ih =>
      cases hc : Text.isBlank c with
      | true => simp [tokensFrom_blank offset hc, ih, hc, Nat.add_assoc]
      | false => simp [hc]

/-- The next token stands between the cursor and where the cursor stands then. -/
theorem nextToken_cases {t : Text} {k : Cursor} (h : k.At t) :
    (nextToken t k = .ok none ∧ tokensFrom k.offset k.rest = []) ∨
    ∃ x behind, nextToken t k = .ok (some (x, behind)) ∧ behind.At t ∧
      tokensFrom k.offset k.rest = x :: tokensFrom behind.offset behind.rest ∧
      t.IsBoundary x.start ∧ k.offset ≤ x.start ∧ x.start ≤ x.stop ∧ x.stop = behind.offset := by
  have hat := h.moveTo (List.dropWhile_suffix Text.isBlank)
  rw [Cursor.moveTo_eq (List.takeWhile_append_dropWhile (p := Text.isBlank)).symm] at hat
  rw [nextToken, Cursor.skip_eq, tokensFrom_skip]
  cases hrest : k.rest.dropWhile Text.isBlank with
  | nil => exact .inl ⟨rfl, by simp [tokensFrom]⟩
  | cons c rest =>
      rw [hrest] at hat
      have hblank : ¬Text.isBlank c = true := by
        have hhead := List.head?_dropWhile_not Text.isBlank k.rest
        rw [hrest] at hhead
        simpa using hhead
      generalize hstart : k.offset + Text.bytes (k.rest.takeWhile Text.isBlank) = start at hat
      have hbehind := hat.moveTo ((Token.read_suffix c rest).trans (List.suffix_cons c rest))
      have htokens : tokensFrom start (c :: rest) =
          let behind := Cursor.moveTo ⟨start, c :: rest⟩ (Token.read c rest).2
          ⟨(Token.read c rest).1, start, behind.offset⟩ :: tokensFrom behind.offset behind.rest := by
        rw [tokensFrom, if_neg hblank]
        rfl
      have hle : k.offset ≤ start := Nat.le_of_add_right_le (Nat.le_of_eq hstart)
      simp only [readToken_eq hat, ok_bind, pure_eq_ok]
      exact .inr ⟨_, _, rfl, hbehind, htokens, hat.boundary, hle, Nat.le_add_right _ _, rfl⟩

theorem readFrom_eq {t : Text} {k : Cursor} (h : k.At t) : readFrom t k = .ok (tokensFrom k.offset k.rest) := by
  fun_induction readFrom t k with
  | case1 k x behind hnext ih =>
      rcases nextToken_cases h with ⟨hnone, -⟩ | ⟨x', behind', hsome, hat, htokens, -⟩
      · cases hnext.symm.trans hnone
      · cases hnext.symm.trans hsome
        rw [ih hat, htokens]
        rfl
  | case2 k hnext =>
      rcases nextToken_cases h with ⟨-, hnil⟩ | ⟨x', behind', hsome, -⟩
      · rw [hnil]
        rfl
      · cases hnext.symm.trans hsome
  | case3 k fault hnext =>
      rcases nextToken_cases h with ⟨hnone, -⟩ | ⟨x', behind', hsome, -⟩
      · cases hnext.symm.trans hnone
      · cases hnext.symm.trans hsome

theorem readTokens_eq (t : Text) : readTokens t = .ok (tokens t) := readFrom_eq (Cursor.at_start t)

theorem readFirst_eq (t : Text) : readFirst t = .ok (firstToken? t) := by
  rw [readFirst, firstToken?, tokens]
  rcases nextToken_cases (Cursor.at_start t) with ⟨hnone, hnil⟩ | ⟨x, behind, hsome, -, htokens, -⟩
  · rw [hnone, hnil]
    rfl
  · rw [hsome, htokens]
    rfl

/-! ## Places of tokens -/

/-- The tokens stand between characters, each behind those in front of it. -/
structure Placed (t : Text) (xs : List Lexeme) : Prop where
  start : ∀ x ∈ xs, t.IsBoundary x.start
  stop : ∀ x ∈ xs, t.IsBoundary x.stop
  start_le : ∀ x ∈ xs, x.start ≤ x.stop
  ordered : xs.Pairwise fun x y => x.stop ≤ y.start

namespace Placed

variable {t : Text} {xs ys : List Lexeme}

theorem sublist (h : Placed t ys) (hsub : xs.Sublist ys) : Placed t xs where
  start x hx := h.start x (hsub.subset hx)
  stop x hx := h.stop x (hsub.subset hx)
  start_le x hx := h.start_le x (hsub.subset hx)
  ordered := h.ordered.sublist hsub

theorem le_stop {x y : Lexeme} (h : Placed t (x :: xs)) (hy : y ∈ x :: xs) : x.start ≤ y.stop := by
  have hx := h.start_le x List.mem_cons_self
  rcases List.mem_cons.mp hy with rfl | hmem
  · exact hx
  · exact Nat.le_trans hx (Nat.le_trans ((List.pairwise_cons.mp h.ordered).1 y hmem) (h.start_le y hy))

/-- What stands from the first of some tokens up to the end of any of them can be sliced. -/
theorem slice_eq {x y : Lexeme} (h : Placed t (x :: xs)) (hy : y ∈ x :: xs) :
    slice t x.start y.stop = .ok (t.slice x.start y.stop) :=
  Access.slice_eq (h.le_stop hy) (h.start x List.mem_cons_self) (h.stop y hy)

end Placed

theorem placed_tokensFrom {t : Text} {k : Cursor} (h : k.At t) :
    Placed t (tokensFrom k.offset k.rest) ∧ ∀ x ∈ tokensFrom k.offset k.rest, k.offset ≤ x.start := by
  induction hn : k.rest.length using Nat.strongRecOn generalizing k with
  | ind n ih =>
      subst hn
      rcases nextToken_cases h with ⟨-, hnil⟩ | ⟨x, behind, hsome, hat, htokens, hboundary, hoffset, hle, hstop⟩
      · rw [hnil]
        exact ⟨⟨nofun, nofun, nofun, .nil⟩, nofun⟩
      · obtain ⟨hplaced, hbehind⟩ := ih _ (length_nextToken_lt hsome) hat rfl
        rw [htokens]
        refine ⟨⟨?_, ?_, ?_, ?_⟩, ?_⟩
        · exact List.forall_mem_cons.mpr ⟨hboundary, hplaced.start⟩
        · exact List.forall_mem_cons.mpr ⟨hstop ▸ hat.boundary, hplaced.stop⟩
        · exact List.forall_mem_cons.mpr ⟨hle, hplaced.start_le⟩
        · exact List.pairwise_cons.mpr ⟨fun y hy => hstop ▸ hbehind y hy, hplaced.ordered⟩
        · refine List.forall_mem_cons.mpr ⟨hoffset, fun y hy => ?_⟩
          exact Nat.le_trans (Nat.le_trans hoffset hle) (hstop ▸ hbehind y hy)

theorem placed_tokens (t : Text) : Placed t (tokens t) := (placed_tokensFrom (Cursor.at_start t)).1

end Access
end SchemaDiagram
