import SchemaDiagram.Proofs.Access.Grammar

/-! # The grammar of names

A name is a word or a string, or several of them with dots in between, each dot right behind the part in front of
it. The reader of names takes the longest one in front of some tokens.
-/
namespace SchemaDiagram

/-- The tokens of a name, with its parts. -/
inductive NameTokens : List Lexeme → List Text → Prop
  | single {x part} (hx : x.name? = some part) : NameTokens [x] [part]
  | dotted {x dot xs part parts} (hx : x.name? = some part) (hdot : dot.token = .dot) (hjoins : dot.start = x.stop)
      (h : NameTokens xs parts) : NameTokens (x :: dot :: xs) (part :: parts)

/-- The tokens are a name, and the name does not go on with those behind. -/
structure Name.SpelledBy (name : Name) (xs rest : List Lexeme) : Prop where
  tokens : NameTokens xs name.parts
  start_eq : xs.head?.map Lexeme.start = some name.start
  stop_eq : xs.getLast?.map Lexeme.stop = some name.stop
  longest : ∀ more parts, more ≠ [] → more <+: rest → ¬NameTokens (xs ++ more) parts

namespace NameTokens

variable {xs more : List Lexeme} {parts : List Text}

theorem exists_head (h : NameTokens xs parts) : ∃ x tail part, xs = x :: tail ∧ x.name? = some part := by
  cases h with
  | single hx | dotted hx => exact ⟨_, _, _, rfl, hx⟩

theorem exists_last (h : NameTokens xs parts) : ∃ x, xs.getLast? = some x := by
  obtain ⟨x, tail, -, rfl, -⟩ := h.exists_head
  exact ⟨_, List.getLast?_cons⟩

/-- Behind a name, a dot and another part make a longer one. -/
theorem concat {last dot y : Lexeme} {part : Text} (h : NameTokens xs parts) (hlast : xs.getLast? = some last)
    (hdot : dot.token = .dot) (hjoins : dot.start = last.stop) (hy : y.name? = some part) :
    NameTokens (xs ++ [dot, y]) (parts ++ [part]) := by
  induction h with
  | single hx =>
      obtain rfl := Option.some.inj hlast
      exact .dotted hx hdot hjoins (.single hy)
  | dotted hx hdot' hjoins' h ih =>
      obtain ⟨x, tail, -, rfl, -⟩ := h.exists_head
      exact .dotted hx hdot' hjoins' (ih (by simpa [List.getLast?_cons] using hlast))

/-- A longer name goes on with a dot right behind, and another part. -/
theorem exists_of_append {parts' : List Text} (h : NameTokens xs parts) (hlong : NameTokens (xs ++ more) parts')
    (hmore : more ≠ []) : ∃ last dot y rest part, xs.getLast? = some last ∧ more = dot :: y :: rest ∧
      dot.token = .dot ∧ dot.start = last.stop ∧ y.name? = some part := by
  induction h generalizing parts' with
  | @single x _ hx =>
      cases hlong with
      | single => exact absurd rfl hmore
      | dotted _ hdot hjoins h =>
          obtain ⟨y, tail, part, rfl, hy⟩ := h.exists_head
          exact ⟨x, _, y, tail, part, rfl, rfl, hdot, hjoins, hy⟩
  | dotted _ _ _ h ih =>
      cases hlong with
      | dotted _ _ _ hlong =>
          obtain ⟨last, dot, y, rest, part, hlast, hmore⟩ := ih hlong
          obtain ⟨z, tail, -, rfl, -⟩ := h.exists_head
          exact ⟨last, dot, y, rest, part, by simpa [List.getLast?_cons] using hlast, hmore⟩

/-- A name is the longest one if no dot with another part behind it stands right behind the name. -/
theorem longest_iff {last : Lexeme} {rest : List Lexeme} (h : NameTokens xs parts) (hlast : xs.getLast? = some last) :
    (∀ more parts', more ≠ [] → more <+: rest → ¬NameTokens (xs ++ more) parts') ↔
      ∀ dot y behind, rest = dot :: y :: behind → dot.token = .dot ∧ dot.start = last.stop → y.name? = none := by
  refine ⟨fun hlongest dot y behind hrest ⟨hdot, hjoins⟩ => ?_, fun hstop more parts' hmore hprefix hlong => ?_⟩
  · refine Option.eq_none_iff_forall_ne_some.mpr fun part hy => ?_
    exact hlongest [dot, y] _ (List.cons_ne_nil _ _) ⟨behind, hrest.symm⟩ (h.concat hlast hdot hjoins hy)
  · obtain ⟨last', dot, y, tail, part, hlast', rfl, hdot, hjoins, hy⟩ := h.exists_of_append hlong hmore
    obtain ⟨behind, rfl⟩ := hprefix
    obtain rfl := Option.some.inj (hlast.symm.trans hlast')
    exact nomatch (hstop dot y (tail ++ behind) rfl ⟨hdot, hjoins⟩).symm.trans hy

end NameTokens

namespace Name

/-- Reading stops in front of tokens that do not go on with the name. -/
theorem readParts_stops (stop : Nat) (xs : List Lexeme) :
    ∀ dot y behind, (readParts stop xs).2.2 = dot :: y :: behind →
      dot.token = .dot ∧ dot.start = (readParts stop xs).2.1 → y.name? = none := by
  fun_induction readParts stop xs with
  | case1 _ _ _ _ _ _ _ _ _ _ hread ih => rwa [hread] at ih
  | case2 stop dot y rest _ hy =>
      rintro _ _ _ ⟨⟩ -
      exact hy
  | case3 stop dot y rest hdot =>
      rintro _ _ _ ⟨⟩ hjoins
      exact absurd hjoins hdot
  | case4 stop xs hshort =>
      rintro dot y behind hrest
      exact (hshort dot y behind hrest).elim

/-- What is read behind a part goes on with the name. -/
theorem readParts_tokens (stop : Nat) (xs : List Lexeme) {x : Lexeme} {part : Text} (hx : x.name? = some part)
    (hstop : x.stop = stop) : ∃ tail, xs = tail ++ (readParts stop xs).2.2 ∧
      NameTokens (x :: tail) (part :: (readParts stop xs).1) ∧
      (x :: tail).getLast?.map Lexeme.stop = some (readParts stop xs).2.1 := by
  fun_induction readParts stop xs generalizing x part with
  | case1 stop dot y rest hdot next hy parts last after hread ih =>
      obtain ⟨tail, hrest, htokens, hlast⟩ := ih hy rfl
      rw [hread] at hrest htokens hlast
      refine ⟨dot :: y :: tail, by rw [hrest]; rfl, .dotted hx hdot.1 (hdot.2.trans hstop.symm) htokens, ?_⟩
      simpa [List.getLast?_cons] using hlast
  | case2 | case3 | case4 => exact ⟨[], rfl, .single hx, congrArg some hstop⟩

theorem readParts_of_tokens {xs rest : List Lexeme} {parts : List Text} (h : NameTokens xs parts) {last : Lexeme}
    (hlast : xs.getLast? = some last) (hstops : ∀ dot y behind, rest = dot :: y :: behind →
      dot.token = .dot ∧ dot.start = last.stop → y.name? = none) :
    ∃ x tail part more, xs = x :: tail ∧ x.name? = some part ∧ parts = part :: more ∧
      readParts x.stop (tail ++ rest) = (more, last.stop, rest) := by
  induction h with
  | @single x part hx =>
      obtain rfl : x = last := Option.some.inj hlast
      refine ⟨x, [], part, [], rfl, hx, rfl, ?_⟩
      match rest, hstops with
      | [], _ | [_], _ => rfl
      | dot :: y :: behind, hstops =>
          rw [List.nil_append, readParts]
          split
          · next hdot => rw [hstops dot y behind rfl hdot]
          · rfl
  | @dotted x dot xs part parts hx hdot hjoins h ih =>
      obtain ⟨y, tail, -, rfl, -⟩ := h.exists_head
      obtain ⟨_, _, next, more, ⟨⟩, hy, rfl, hread⟩ := ih (by simpa [List.getLast?_cons] using hlast)
      refine ⟨x, dot :: y :: tail, part, next :: more, rfl, hx, rfl, ?_⟩
      rw [List.cons_append, List.cons_append, readParts, if_pos ⟨hdot, hjoins⟩, hy]
      simp only [hread]

/-- The reader of names takes the longest name in front of the tokens. -/
theorem read?_eq_some_iff {ts rest : List Lexeme} {name : Name} :
    read? ts = some (name, rest) ↔ ∃ xs, ts = xs ++ rest ∧ name.SpelledBy xs rest := by
  constructor
  · intro h
    cases ts with
    | nil => cases h
    | cons x behind =>
        obtain ⟨part, hx, h⟩ := Option.map_eq_some_iff.mp h
        obtain ⟨rfl, rfl⟩ := Prod.mk.inj h
        obtain ⟨tail, hbehind, htokens, hstop⟩ := readParts_tokens x.stop behind hx rfl
        obtain ⟨last, hlast, hlaststop⟩ := Option.map_eq_some_iff.mp hstop
        refine ⟨x :: tail, congrArg (x :: ·) hbehind, htokens, rfl, hstop, (htokens.longest_iff hlast).mpr ?_⟩
        rw [hlaststop]
        exact readParts_stops x.stop behind
  · rintro ⟨xs, rfl, htokens, hstart, hstop, hlongest⟩
    obtain ⟨last, hlast⟩ := htokens.exists_last
    obtain ⟨x, tail, part, more, rfl, hx, hparts, hread⟩ :=
      readParts_of_tokens htokens hlast ((htokens.longest_iff hlast).mp hlongest)
    obtain ⟨parts, start, stop⟩ := name
    obtain rfl : parts = part :: more := hparts
    obtain rfl : x.start = start := Option.some.inj hstart
    obtain rfl : last.stop = stop := by simpa [hlast] using hstop
    rw [List.cons_append, read?, hx, Option.map_some, hread]

end Name

/-! ## Fields of tables -/

/-- The tokens are the longest name, of two parts or more: the last part is the field, the others make up the name of
its table. -/
def FieldName.SpelledBy (field : FieldName) (xs rest : List Lexeme) : Prop :=
  ∃ parts, Name.SpelledBy ⟨parts, field.start, field.stop⟩ xs rest ∧ 2 ≤ parts.length ∧
    field.table = Text.joinWith '.' parts.dropLast ∧ parts.getLast? = some field.field

theorem FieldName.read?_eq_some_iff {ts rest : List Lexeme} {field : FieldName} :
    read? ts = some (field, rest) ↔ ∃ xs, ts = xs ++ rest ∧ field.SpelledBy xs rest := by
  constructor
  · intro h
    rw [read?] at h
    split at h
    · next name after hname =>
        split at h
        · cases h
        · next hlength =>
            obtain ⟨last, hlast, h⟩ := Option.map_eq_some_iff.mp h
            obtain ⟨rfl, rfl⟩ := Prod.mk.inj h
            obtain ⟨xs, rfl, hspelled⟩ := Name.read?_eq_some_iff.mp hname
            exact ⟨xs, rfl, name.parts, hspelled, Nat.le_of_not_lt hlength, rfl, hlast⟩
    · cases h
  · rintro ⟨xs, rfl, parts, hspelled, hlength, htable, hlast⟩
    obtain ⟨table, last, start, stop⟩ := field
    have hname := Name.read?_eq_some_iff.mpr ⟨xs, rfl, hspelled⟩
    rw [read?, hname]
    simp only [Nat.not_lt.mpr hlength, ↓reduceIte, hlast, Option.map_some, ← htable]

end SchemaDiagram
