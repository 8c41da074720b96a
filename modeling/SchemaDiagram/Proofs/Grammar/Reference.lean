import SchemaDiagram.Proofs.Grammar.Name

/-! # The grammar of references

A reference is a field, a sign and a field, and perhaps a list of settings in brackets that match. The reader of
references accepts what is made up like that in full, and nothing else.
-/
namespace SchemaDiagram

/-! ## Matching brackets -/

/-- How many brackets and parentheses are open behind a token, with `depth` open in front of it. One that closes
nothing does not count. -/
def Token.nesting (depth : Nat) : Token → Nat
  | openParen | openBracket => depth + 1
  | closeParen | closeBracket => depth - 1
  | _ => depth

def nestingBehind (depth : Nat) (xs : List Lexeme) : Nat := xs.foldl (fun depth x => x.token.nesting depth) depth

/-- All that is open in front of the tokens is closed by them, and no bracket among them closes more. So a bracket
behind them closes the list that they stand in. -/
structure Enclosed (depth : Nat) (xs : List Lexeme) : Prop where
  settled : nestingBehind depth xs = 0
  inner : ∀ before x after, xs = before ++ x :: after → x.token = .closeBracket → nestingBehind depth before ≠ 0

theorem enclosed_nil_iff {depth : Nat} : Enclosed depth [] ↔ depth = 0 := by
  refine ⟨fun h => h.settled, fun h => ⟨h, fun before x after hnil => ?_⟩⟩
  cases before <;> cases hnil

theorem enclosed_cons_iff {depth : Nat} {x : Lexeme} {xs : List Lexeme} :
    Enclosed depth (x :: xs) ↔ ¬(x.token = .closeBracket ∧ depth = 0) ∧ Enclosed (x.token.nesting depth) xs := by
  constructor
  · rintro ⟨hsettled, hinner⟩
    refine ⟨fun ⟨hx, hdepth⟩ => hinner [] x xs rfl hx hdepth, hsettled, fun before y after hxs hy => ?_⟩
    exact hinner (x :: before) y after (congrArg (x :: ·) hxs) hy
  · rintro ⟨hfirst, hsettled, hinner⟩
    refine ⟨hsettled, fun before y after hxs hy => ?_⟩
    cases before with
    | nil =>
        obtain ⟨rfl, -⟩ := List.cons.inj hxs
        exact fun hdepth => hfirst ⟨hy, hdepth⟩
    | cons z before =>
        obtain ⟨rfl, rfl⟩ := List.cons.inj hxs
        exact hinner before y after rfl hy

theorem ItemStep.of_cases (token : Token) (depth : Nat) :
    (of token depth = behindList ∧ token = .closeBracket ∧ depth = 0) ∨
    (of token depth = nextItem ∧ token = .comma ∧ depth = 0) ∨
    (of token depth = inside (token.nesting depth) ∧ ¬(token = .closeBracket ∧ depth = 0)) := by
  cases token <;> cases depth <;> simp [of, Token.nesting]

/-- A list is closed by the bracket that matches the one in front of it. -/
theorem splitItems_closed_iff {depth : Nat} {xs rest : List Lexeme} :
    (splitItems depth xs).2 = some rest ↔
      ∃ inside closing, xs = inside ++ closing :: rest ∧ Enclosed depth inside ∧ closing.token = .closeBracket := by
  induction xs generalizing depth with
  | nil => simp [splitItems]
  | cons x xs ih =>
      -- any step but the last one goes on with the tokens behind `x`
      have hlater : ¬(x.token = .closeBracket ∧ depth = 0) →
          ((∃ inside closing, x :: xs = inside ++ closing :: rest ∧ Enclosed depth inside ∧
              closing.token = .closeBracket) ↔
            (splitItems (x.token.nesting depth) xs).2 = some rest) := by
        intro hx
        rw [ih]
        constructor
        · rintro ⟨inside, closing, hxs, hinside, hclosing⟩
          cases inside with
          | nil =>
              obtain ⟨rfl, rfl⟩ := List.cons.inj hxs
              exact absurd ⟨hclosing, enclosed_nil_iff.mp hinside⟩ hx
          | cons y inside =>
              obtain ⟨rfl, rfl⟩ := List.cons.inj hxs
              exact ⟨inside, closing, rfl, (enclosed_cons_iff.mp hinside).2, hclosing⟩
        · rintro ⟨inside, closing, rfl, hinside, hclosing⟩
          exact ⟨x :: inside, closing, rfl, enclosed_cons_iff.mpr ⟨hx, hinside⟩, hclosing⟩
      rw [splitItems_cons]
      rcases ItemStep.of_cases x.token depth with ⟨hstep, hx, rfl⟩ | ⟨hstep, hx, rfl⟩ | ⟨hstep, hx⟩
      · rw [hstep, Option.some.injEq]
        constructor
        · rintro rfl
          exact ⟨[], x, rfl, enclosed_nil_iff.mpr rfl, hx⟩
        · rintro ⟨inside, closing, hxs, hinside, -⟩
          cases inside with
          | nil => exact (List.cons.inj hxs).2
          | cons y inside =>
              obtain ⟨rfl, -⟩ := List.cons.inj hxs
              exact absurd ⟨hx, rfl⟩ (enclosed_cons_iff.mp hinside).1
      · rw [hstep, hlater (by simp [hx]), hx]
        rfl
      · obtain ⟨item, items, after, hitems⟩ := exists_splitItems (x.token.nesting depth) xs
        rw [hlater hx]
        simp only [hstep, hitems]

/-- The items of a list are those of the tokens inside its brackets. -/
theorem splitItems_enclosed {depth : Nat} {inside : List Lexeme} {closing : Lexeme} (h : Enclosed depth inside)
    (hclosing : closing.token = .closeBracket) (rest : List Lexeme) :
    (splitItems depth (inside ++ closing :: rest)).1 = (splitItems depth inside).1 := by
  induction inside generalizing depth with
  | nil =>
      obtain rfl := enclosed_nil_iff.mp h
      rw [List.nil_append, splitItems_cons, hclosing]
      rfl
  | cons x inside ih =>
      obtain ⟨hx, hinside⟩ := enclosed_cons_iff.mp h
      rw [List.cons_append, splitItems_cons, splitItems_cons]
      rcases ItemStep.of_cases x.token depth with ⟨-, hclose, hdepth⟩ | ⟨hstep, hcomma, rfl⟩ | ⟨hstep, -⟩
      · exact absurd ⟨hclose, hdepth⟩ hx
      · rw [hcomma] at hinside
        rw [hstep]
        exact congrArg ([] :: ·) (ih hinside)
      · obtain ⟨item, items, after, hitems⟩ := exists_splitItems (x.token.nesting depth) inside
        obtain ⟨item', items', after', hitems'⟩ :=
          exists_splitItems (x.token.nesting depth) (inside ++ closing :: rest)
        have hsame := ih hinside
        rw [hitems, hitems'] at hsame
        obtain ⟨rfl, rfl⟩ := List.cons.inj hsame
        simp only [hstep, hitems, hitems']

namespace SettingList

variable {text : Text} {inside rest : List Lexeme} {closing : Lexeme}

theorem closed_iff {xs : List Lexeme} : (read text xs).closed = true ∧ (read text xs).rest = rest ↔
    ∃ inside closing, xs = inside ++ closing :: rest ∧ Enclosed 0 inside ∧ closing.token = .closeBracket := by
  rw [← splitItems_closed_iff]
  change (splitItems 0 xs).2.isSome = true ∧ (splitItems 0 xs).2.getD [] = rest ↔ _
  cases (splitItems 0 xs).2 <;> simp

theorem settings_enclosed (h : Enclosed 0 inside) (hclosing : closing.token = .closeBracket) :
    (read text (inside ++ closing :: rest)).settings = (read text inside).settings :=
  congrArg (List.filterMap (Setting.ofItem? text)) (splitItems_enclosed h hclosing rest)

end SettingList

/-! ## References -/

namespace RefBody

/-- The tokens make up the reference in full. -/
inductive SpelledBy (text : Text) (r : RefBody) : List Lexeme → Prop
  | bare {xs sign ys} (hsource : r.source.SpelledBy xs (sign :: ys)) (hsign : sign.token = .op r.kind)
      (htarget : r.target.SpelledBy ys []) (hsettings : r.settings = []) : SpelledBy text r (xs ++ sign :: ys)
  | bracketed {xs sign ys opening inside closing}
      (hsource : r.source.SpelledBy xs (sign :: (ys ++ opening :: (inside ++ [closing]))))
      (hsign : sign.token = .op r.kind) (htarget : r.target.SpelledBy ys (opening :: (inside ++ [closing])))
      (hopening : opening.token = .openBracket) (hinside : Enclosed 0 inside)
      (hclosing : closing.token = .closeBracket) (hsettings : r.settings = (SettingList.read text inside).settings) :
      SpelledBy text r (xs ++ sign :: (ys ++ opening :: (inside ++ [closing])))

variable {text : Text} {ts : List Lexeme} {r : RefBody}

theorem ofTokens?_sound (h : ofTokens? text ts = some r) : r.SpelledBy text ts := by
  rw [ofTokens?] at h
  split at h
  · next source kind start stop behind hread =>
      obtain ⟨xs, rfl, hsource⟩ := FieldName.read?_eq_some_iff.mp hread
      split at h
      · next target hread =>
          obtain ⟨ys, rfl, htarget⟩ := FieldName.read?_eq_some_iff.mp hread
          obtain rfl := Option.some.inj h
          rw [List.append_nil] at hsource ⊢
          exact .bare hsource rfl htarget rfl
      · next target start stop behind hread =>
          obtain ⟨ys, rfl, htarget⟩ := FieldName.read?_eq_some_iff.mp hread
          obtain ⟨hlist, h⟩ := Option.ite_none_right_eq_some.mp h
          obtain rfl := Option.some.inj h
          rw [Bool.and_eq_true, List.isEmpty_iff] at hlist
          obtain ⟨inside, closing, rfl, hinside, hclosing⟩ := SettingList.closed_iff.mp hlist
          exact .bracketed hsource rfl htarget rfl hinside hclosing (SettingList.settings_enclosed hinside hclosing)
      · cases h
  · cases h

theorem ofTokens?_complete (h : r.SpelledBy text ts) : ofTokens? text ts = some r := by
  obtain ⟨source, kind, target, settings⟩ := r
  cases h with
  | @bare xs sign ys hsource hsign htarget hsettings =>
      obtain ⟨token, start, stop⟩ := sign
      obtain rfl : token = .op kind := hsign
      obtain rfl : settings = [] := hsettings
      have htarget := FieldName.read?_eq_some_iff.mpr ⟨ys, (List.append_nil ys).symm, htarget⟩
      rw [ofTokens?, FieldName.read?_eq_some_iff.mpr ⟨xs, rfl, hsource⟩]
      simp only [htarget]
  | @bracketed xs sign ys opening inside closing hsource hsign htarget hopening hinside hclosing hsettings =>
      obtain ⟨token, start, stop⟩ := sign
      obtain rfl : token = .op kind := hsign
      obtain ⟨token, start', stop'⟩ := opening
      obtain rfl : token = .openBracket := hopening
      have hclosed : (SettingList.read text (inside ++ [closing])).closed = true ∧
          (SettingList.read text (inside ++ [closing])).rest = [] :=
        SettingList.closed_iff.mpr ⟨inside, closing, rfl, hinside, hclosing⟩
      have hsettings : settings = (SettingList.read text (inside ++ [closing])).settings :=
        hsettings.trans (SettingList.settings_enclosed hinside hclosing).symm
      have htarget := FieldName.read?_eq_some_iff.mpr ⟨ys, rfl, htarget⟩
      rw [ofTokens?, FieldName.read?_eq_some_iff.mpr ⟨xs, rfl, hsource⟩]
      simp only [htarget, hclosed.1, hclosed.2, List.isEmpty_nil, Bool.and_self, ↓reduceIte, hsettings]

/-- The body of a reference is read if and only if its tokens are a field, a sign and a field, with nothing behind
them but settings in matching brackets; and it is read as the fields and the sign that these tokens spell. -/
theorem read?_iff_spelledBy (text : Text) (r : RefBody) : read? text = some r ↔ r.SpelledBy text (tokens text) :=
  ⟨ofTokens?_sound, ofTokens?_complete⟩

-- a setting that is open at the end of the text, and a word behind the second field
example : (RefBody.read? "a.x > b.y [delete: (cascade]".toList).isNone = true := by decide +kernel
example : (RefBody.read? "a.x > b.y extra".toList).isNone = true := by decide +kernel

end RefBody
end SchemaDiagram
