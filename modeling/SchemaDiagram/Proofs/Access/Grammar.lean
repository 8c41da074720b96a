import SchemaDiagram.Grammar.Field
import SchemaDiagram.Grammar.Header
import SchemaDiagram.Grammar.Reference
import SchemaDiagram.Proofs.Access.Setting

/-! # Checked reading of statements

Fields, headers and references are read by the indices of their tokens, and what is read of them stands at
ends of tokens.
-/
namespace SchemaDiagram

/-! ## What is left of the tokens -/

theorem Name.readParts_suffix (stop : Nat) (xs : List Lexeme) : (Name.readParts stop xs).2.2 <:+ xs := by
  fun_induction Name.readParts stop xs with
  | case1 stop x y rest _ part _ parts last after hread ih =>
      rw [hread] at ih
      exact (ih.trans (List.suffix_cons _ _)).trans (List.suffix_cons _ _)
  | case2 | case3 | case4 => exact List.suffix_refl _

theorem Name.read?_suffix {xs after : List Lexeme} {name : Name} (h : Name.read? xs = some (name, after)) :
    after <:+ xs := by
  cases xs with
  | nil => cases h
  | cons x rest =>
      obtain ⟨part, -, heq⟩ := Option.map_eq_some_iff.mp h
      obtain ⟨-, rfl⟩ := Prod.mk.inj heq
      exact (Name.readParts_suffix x.stop rest).trans (List.suffix_cons x rest)

theorem FieldName.read?_suffix {xs after : List Lexeme} {name : FieldName}
    (h : FieldName.read? xs = some (name, after)) : after <:+ xs := by
  rw [FieldName.read?] at h
  split at h
  · next found rest hread =>
      split at h
      · cases h
      · obtain ⟨field, -, heq⟩ := Option.map_eq_some_iff.mp h
        obtain ⟨-, rfl⟩ := Prod.mk.inj heq
        exact Name.read?_suffix hread
  · cases h

theorem TableHeader.readName_suffix (xs : List Lexeme) : (TableHeader.readName xs).2 <:+ xs := by
  unfold TableHeader.readName
  split
  · split
    · split
      · next hread => exact Name.read?_suffix hread
      · exact List.suffix_refl _
    · exact List.suffix_refl _
  · exact List.suffix_refl _

theorem TableHeader.readAlias_suffix (xs : List Lexeme) : (TableHeader.readAlias xs).2 <:+ xs := by
  unfold TableHeader.readAlias
  split
  · next x rest =>
      split
      · exact (List.drop_suffix 1 rest).trans (List.suffix_cons x rest)
      · exact List.suffix_refl _
  · exact List.suffix_refl _

namespace Access

variable {t : Text} {tokens : List Lexeme}

/-! ## Fields -/

/-- The index of the parenthesis that closes the first one of some tokens; `depth` are open in front of them. -/
def closingParen : Nat → List Lexeme → Access (Option Nat)
  | _, [] => return none
  | depth, x :: rest =>
    match x.token with
    | .openParen => do return (← closingParen (depth + 1) rest).map (· + 1)
    | .closeParen => do
      let depth ← difference depth 1
      if depth = 0 then return some 0 else return (← closingParen depth rest).map (· + 1)
    | _ => do return (← closingParen depth rest).map (· + 1)

theorem closingParen_cases (depth : Nat) (xs : List Lexeme) :
    (closingParen (depth + 1) xs = .ok none ∧ FieldHead.closeParen? depth xs = none) ∨
    ∃ i x, closingParen (depth + 1) xs = .ok (some i) ∧ xs[i]? = some x ∧
      FieldHead.closeParen? depth xs = some (x.stop, xs.drop (i + 1)) := by
  have hlater : ∀ {x : Lexeme} {rest : List Lexeme} {depth : Nat},
      ((closingParen (depth + 1) rest = .ok none ∧ FieldHead.closeParen? depth rest = none) ∨
        ∃ i y, closingParen (depth + 1) rest = .ok (some i) ∧ rest[i]? = some y ∧
          FieldHead.closeParen? depth rest = some (y.stop, rest.drop (i + 1))) →
      ((do return (← closingParen (depth + 1) rest).map (· + 1)) = (.ok none : Access (Option Nat)) ∧
        FieldHead.closeParen? depth rest = none) ∨
      ∃ i y, (do return (← closingParen (depth + 1) rest).map (· + 1)) = (.ok (some i) : Access (Option Nat)) ∧
        (x :: rest)[i]? = some y ∧
          FieldHead.closeParen? depth rest = some (y.stop, (x :: rest).drop (i + 1)) := by
    rintro x rest depth (⟨hnone, hclose⟩ | ⟨i, y, hsome, hi, hclose⟩)
    · exact .inl ⟨by rw [hnone]; rfl, hclose⟩
    · exact .inr ⟨i + 1, y, by rw [hsome]; rfl, hi, hclose⟩
  induction xs generalizing depth with
  | nil => exact .inl ⟨rfl, rfl⟩
  | cons x rest ih =>
      obtain ⟨token, start, stop⟩ := x
      cases token with
      | openParen => exact hlater (ih (depth + 1))
      | closeParen =>
          cases depth with
          | zero => exact .inr ⟨0, _, rfl, rfl, rfl⟩
          | succ depth => exact hlater (ih depth)
      | _ => exact hlater (ih depth)

theorem exists_of_closeParen? {depth stop : Nat} {xs after : List Lexeme}
    (h : FieldHead.closeParen? depth xs = some (stop, after)) : after <:+ xs ∧ ∃ x ∈ xs, stop = x.stop := by
  rcases closingParen_cases depth xs with ⟨-, hnone⟩ | ⟨i, x, -, hx, hsome⟩
  · cases h.symm.trans hnone
  · cases h.symm.trans hsome
    exact ⟨List.drop_suffix _ _, x, List.mem_of_getElem? hx, rfl⟩

/-- A type ends where it is known to reach, or where one of the tokens behind ends. -/
def Within (stop : Nat) (xs : List Lexeme) (e : FieldHead.TypeEnd) : Prop :=
  e.rest <:+ xs ∧ (e.stop = stop ∨ ∃ x ∈ xs, e.stop = x.stop)

theorem within_here (stop : Nat) (xs : List Lexeme) (unterminated : Bool) : Within stop xs ⟨stop, xs, unterminated⟩ :=
  ⟨List.suffix_refl xs, .inl rfl⟩

theorem Within.later {stop stop' : Nat} {xs after : List Lexeme} {e : FieldHead.TypeEnd} (h : Within stop' after e)
    (hafter : after <:+ xs) (hstop : ∃ x ∈ xs, stop' = x.stop) : Within stop xs e := by
  obtain ⟨x, hx, rfl⟩ := hstop
  refine ⟨h.1.trans hafter, .inr ?_⟩
  rcases h.2 with heq | ⟨y, hy, heq⟩
  · exact ⟨x, hx, heq⟩
  · exact ⟨y, hafter.subset hy, heq⟩

theorem Within.exists_stop {x : Lexeme} {xs : List Lexeme} {e : FieldHead.TypeEnd} (h : Within x.stop xs e) :
    ∃ y ∈ x :: xs, e.stop = y.stop := by
  rcases h.2 with heq | ⟨y, hy, heq⟩
  · exact ⟨x, List.mem_cons_self, heq⟩
  · exact ⟨y, List.mem_cons_of_mem x hy, heq⟩

theorem within_typeEnd (stop : Nat) (xs : List Lexeme) : Within stop xs (FieldHead.typeEnd stop xs) := by
  have htwo : ∀ (x y : Lexeme) (after : List Lexeme), after <:+ x :: y :: after :=
    fun x y after => (List.suffix_cons y after).trans (List.suffix_cons x _)
  fun_induction FieldHead.typeEnd stop xs with
  | case1 | case3 | case4 | case8 | case9 | case10 => exact within_here _ _ _
  | case2 stop x _ y after _ ih | case7 stop x _ y after _ ih => exact ih.later (htwo x y after) ⟨y, by simp, rfl⟩
  | case5 stop x rest _ closed after hclose ih =>
      obtain ⟨hafter, y, hy, hstop⟩ := exists_of_closeParen? hclose
      exact ih.later (hafter.trans (List.suffix_cons x rest)) ⟨y, List.mem_cons_of_mem x hy, hstop⟩
  | case6 stop x rest _ _ inside =>
      refine ⟨(List.dropWhile_suffix _).trans (List.suffix_cons x rest), .inr ⟨_, ?_, rfl⟩⟩
      cases hlast : inside.getLast? with
      | none => exact List.mem_cons_self
      | some y =>
          exact List.mem_cons_of_mem x ((List.takeWhile_sublist _).subset (List.mem_of_getLast? hlast))

/-- Where a type ends that reaches to byte `stop` and to the token at index `i`: the byte, the index of the token
behind, and whether a parenthesis is left open. -/
def typeEndFrom (tokens : List Lexeme) (stop i : Nat) : Access (Nat × Nat × Bool) :=
  match _h : tokens[i]? with
  | none => return (stop, i, false)
  | some x =>
    match x.token with
    | .dot =>
      if tokens[i + 1]?.any Lexeme.isIdentifier then do
        let part ← index tokens (i + 1)
        typeEndFrom tokens part.stop (i + 2)
      else return (stop, i, false)
    | .openParen => do
      match ← closingParen 0 (← itemsFrom tokens i) with
      | some close =>
        let last ← index tokens (i + close)
        typeEndFrom tokens last.stop (i + close + 1)
      | none =>
        let bracket := (← itemsFrom tokens i).findIdx? (·.token = .openBracket)
        let next := (bracket.map (i + ·)).getD tokens.length
        let last ← index tokens (← difference next 1)
        return (last.stop, next, true)
    | .openBracket => do
      let bracket ← index tokens i
      if bracket.start = stop ∧ tokens[i + 1]?.any (·.token = .closeBracket) then
        let last ← index tokens (i + 1)
        typeEndFrom tokens last.stop (i + 2)
      else return (stop, i, false)
    | _ => return (stop, i, false)
termination_by tokens.length - i
decreasing_by
  all_goals
    have := (List.getElem?_eq_some_iff.mp ‹_›).1
    omega

theorem getElem?_of_drop_eq_cons {i : Nat} {x : Lexeme} {after : List Lexeme} (h : tokens.drop i = x :: after) :
    tokens[i]? = some x := by
  rw [← List.head?_drop, h]
  rfl

theorem getD_map_findIdx? {α : Type} {p q : α → Bool} (h : ∀ a, q a = !p a) (as : List α) (i : Nat) :
    ((as.findIdx? p).map (i + ·)).getD (i + as.length) = i + (as.takeWhile q).length := by
  induction as generalizing i with
  | nil => rfl
  | cons a rest ih =>
      rw [List.findIdx?_cons, List.takeWhile_cons, h a]
      cases p a with
      | true => rfl
      | false =>
          have hrest := ih (i + 1)
          simp only [Bool.false_eq_true, ↓reduceIte, Option.map_map, Function.comp_def, Bool.not_false,
            List.length_cons, Nat.add_right_comm _ 1, Nat.add_assoc] at hrest ⊢
          exact hrest

theorem exists_of_any {α : Type} {p : α → Bool} {a? : Option α} (h : a?.any p = true) :
    ∃ a, a? = some a ∧ p a = true := by
  cases a? with
  | none => cases h
  | some a => exact ⟨a, rfl, h⟩

theorem closingParen_openParen {x : Lexeme} (h : x.token = .openParen) (rest : List Lexeme) :
    closingParen 0 (x :: rest) = do return (← closingParen 1 rest).map (· + 1) := by
  rw [closingParen, h]

theorem typeEnd_openParen_of_none {stop : Nat} {x : Lexeme} {rest : List Lexeme} (hx : x.token = .openParen)
    (h : FieldHead.closeParen? 0 rest = none) :
    FieldHead.typeEnd stop (x :: rest) =
      ⟨((rest.takeWhile (·.token != .openBracket)).getLast?.getD x).stop,
        rest.dropWhile (·.token != .openBracket), true⟩ := by
  rw [FieldHead.typeEnd.eq_def]
  simp only [hx]
  split
  · next hsome => cases h.symm.trans hsome
  · rfl

theorem typeEnd_openParen_of_some {stop closed : Nat} {x : Lexeme} {rest after : List Lexeme}
    (hx : x.token = .openParen) (h : FieldHead.closeParen? 0 rest = some (closed, after)) :
    FieldHead.typeEnd stop (x :: rest) = FieldHead.typeEnd closed after := by
  rw [FieldHead.typeEnd.eq_def]
  simp only [hx]
  split
  · next hsome =>
      cases h.symm.trans hsome
      rfl
  · next hnone => cases h.symm.trans hnone

/-- If no parenthesis closes the one at index `i`, the type takes what is inside, up to the next bracket. -/
theorem unclosed_positions {i : Nat} {x : Lexeme} (hx : tokens[i]? = some x) (hparen : x.token = .openParen)
    {inside : List Lexeme} (hinside : inside = (tokens.drop (i + 1)).takeWhile (·.token != .openBracket)) :
    (((x :: tokens.drop (i + 1)).findIdx? (·.token = .openBracket)).map (i + ·)).getD tokens.length =
        i + (inside.length + 1) ∧
      tokens[i + inside.length]? = some (inside.getLast?.getD x) ∧
      tokens.length - ((tokens.drop (i + 1)).dropWhile (·.token != .openBracket)).length = i + (inside.length + 1) := by
  have hsplit : inside ++ (tokens.drop (i + 1)).dropWhile (·.token != .openBracket) = tokens.drop (i + 1) :=
    hinside ▸ List.takeWhile_append_dropWhile
  have hlt := (List.getElem?_eq_some_iff.mp hx).1
  have hlength : tokens.length = i + (x :: tokens.drop (i + 1)).length := by
    rw [← drop_eq_cons hx, List.length_drop, Nat.add_sub_cancel' (Nat.le_of_lt hlt)]
  refine ⟨?_, ?_, ?_⟩
  · have hnext := getD_map_findIdx? (p := fun y : Lexeme => decide (y.token = .openBracket))
      (q := (·.token != .openBracket)) (fun y => rfl) (x :: tokens.drop (i + 1)) i
    rwa [← hlength, List.takeWhile_cons_of_pos (by simp [hparen]), ← hinside, List.length_cons] at hnext
  · rw [← List.getElem?_drop, drop_eq_cons hx, ← hsplit, ← List.cons_append, List.getElem?_append_left (by simp),
      ← List.getLast?_cons, List.getLast?_eq_getElem?]
    rfl
  · have hlengths := congrArg List.length hsplit
    rw [List.length_append] at hlengths
    rw [List.length_cons] at hlength
    omega

/-- The type ends where it is known to reach. -/
theorem typeEnd_here {stop i : Nat} (hi : i ≤ tokens.length)
    (h : FieldHead.typeEnd stop (tokens.drop i) = ⟨stop, tokens.drop i, false⟩) :
    (pure (stop, i, false) : Access (Nat × Nat × Bool)) =
      let e := FieldHead.typeEnd stop (tokens.drop i)
      .ok (e.stop, tokens.length - e.rest.length, e.unterminated) := by
  rw [h]
  simp [Nat.sub_sub_self hi]

theorem typeEndFrom_eq {stop i : Nat} (hi : i ≤ tokens.length) :
    typeEndFrom tokens stop i =
      let e := FieldHead.typeEnd stop (tokens.drop i)
      .ok (e.stop, tokens.length - e.rest.length, e.unterminated) := by
  fun_induction typeEndFrom tokens stop i with
  | case1 stop i hx =>
      have hnil := List.drop_eq_nil_of_le (List.getElem?_eq_none_iff.mp hx)
      exact typeEnd_here hi (by rw [hnil, FieldHead.typeEnd])
  | case2 stop i x hx hdot hpart ih =>
      obtain ⟨y, hy, hident⟩ := exists_of_any hpart
      have hlt := (List.getElem?_eq_some_iff.mp hy).1
      rw [index_eq hy, ok_bind, ih y hlt, drop_eq_cons hx, drop_eq_cons hy, FieldHead.typeEnd.eq_def stop (x :: _)]
      simp only [hdot, hident, ↓reduceIte]
  | case3 stop i x hx hdot hpart =>
      refine typeEnd_here hi ?_
      rw [drop_eq_cons hx, FieldHead.typeEnd.eq_def]
      cases hrest : tokens.drop (i + 1) with
      | nil => simp only [hdot]
      | cons y after =>
          have hy := getElem?_of_drop_eq_cons hrest
          have hident : ¬y.isIdentifier = true := by simpa [hy] using hpart
          simp only [hdot, hident, Bool.false_eq_true, ↓reduceIte]
  | case4 stop i x hx hparen ih =>
      simp only [itemsFrom_eq hi, ok_bind, drop_eq_cons hx, closingParen_openParen hparen]
      rcases closingParen_cases 0 (tokens.drop (i + 1)) with ⟨hnone, hclose⟩ | ⟨k, y, hsome, hy, hclose⟩
      · -- no parenthesis closes it, and the type ends in front of the next bracket
        obtain ⟨inside, hinside⟩ :
          ∃ inside, inside = (tokens.drop (i + 1)).takeWhile (·.token != .openBracket) := ⟨_, rfl⟩
        obtain ⟨hnext, hlast, hbehind⟩ := unclosed_positions hx hparen hinside
        rw [hnone, typeEnd_openParen_of_none hparen hclose, ← hinside]
        simp only [ok_bind, pure_eq_ok, Option.map_none, hnext, hbehind, difference_eq (Nat.le_add_left 1 _),
          ← Nat.add_assoc, Nat.add_sub_cancel, index_eq hlast]
      · have hy' : tokens[i + (k + 1)]? = some y := by
          rw [← hy, List.getElem?_drop, Nat.add_assoc, Nat.add_comm 1]
        have hlt' := (List.getElem?_eq_some_iff.mp hy').1
        rw [hsome, typeEnd_openParen_of_some hparen hclose]
        simp only [ok_bind, pure_eq_ok, Option.map_some, index_eq hy', ih (k + 1) y hlt', List.drop_drop,
          Nat.add_right_comm i 1]
  | case5 stop i x hx hbracket ih =>
      rw [index_eq hx, ok_bind]
      split
      · next hpair =>
          obtain ⟨y, hy, hclose⟩ := exists_of_any hpair.2
          have hlt := (List.getElem?_eq_some_iff.mp hy).1
          rw [index_eq hy, ok_bind, ih x y hlt, drop_eq_cons hx, drop_eq_cons hy,
            FieldHead.typeEnd.eq_def stop (x :: _)]
          simp only [hbracket, hpair.1, of_decide_eq_true hclose, and_self, ↓reduceIte]
      · next hpair =>
          refine typeEnd_here hi ?_
          rw [drop_eq_cons hx, FieldHead.typeEnd.eq_def]
          cases hrest : tokens.drop (i + 1) with
          | nil => simp only [hbracket]
          | cons y after =>
              have hy := getElem?_of_drop_eq_cons hrest
              have hno : ¬(x.start = stop ∧ y.token = .closeBracket) := by simpa [hy] using hpair
              simp only [hbracket, if_neg hno]
  | case6 stop i x hx hdot hparen hbracket =>
      refine typeEnd_here hi ?_
      rw [drop_eq_cons hx, FieldHead.typeEnd.eq_def]
      split <;> simp_all

theorem drop_length_sub {rest : List Lexeme} (h : rest <:+ tokens) : tokens.drop (tokens.length - rest.length) = rest :=
  (List.suffix_iff_eq_drop.mp h).symm

theorem lt_length_of_suffix {x : Lexeme} {rest : List Lexeme} (h : x :: rest <:+ tokens) :
    tokens.length - (x :: rest).length < tokens.length := by
  have hle := h.length_le
  rw [List.length_cons] at hle ⊢
  omega

/-- The list whose opening bracket stands in front of the last tokens. -/
theorem settingsAt_suffix (hp : Placed t tokens) {x : Lexeme} {rest : List Lexeme} (h : x :: rest <:+ tokens) :
    settingsAt t tokens (tokens.length - (x :: rest).length) =
      let list := SettingList.read t rest
      .ok (list.settings, tokens.length - list.rest.length, list.closed) := by
  have hdrop : tokens.drop (tokens.length - (x :: rest).length + 1) = rest := by
    rw [← List.drop_drop, drop_length_sub h, List.drop_one, List.tail_cons]
  rw [settingsAt_eq hp (lt_length_of_suffix h), hdrop]

/-- The list that opens at an index, if one does, the index behind it, and whether it is closed. -/
def settingsIfAny (t : Text) (tokens : List Lexeme) (i : Nat) : Access (List Setting × Nat × Bool) :=
  match tokens[i]? with
  | some ⟨.openBracket, _, _⟩ => settingsAt t tokens i
  | _ => return ([], i, true)

/-- The list that opens in front of some tokens, if one does. -/
def listIfAny (t : Text) : List Lexeme → SettingList
  | ⟨.openBracket, _, _⟩ :: rest => SettingList.read t rest
  | rest => ⟨[], rest, true⟩

theorem settingsIfAny_eq (hp : Placed t tokens) {rest : List Lexeme} (h : rest <:+ tokens) :
    settingsIfAny t tokens (tokens.length - rest.length) =
      .ok ((listIfAny t rest).settings, tokens.length - (listIfAny t rest).rest.length, (listIfAny t rest).closed) := by
  have hhead : tokens[tokens.length - rest.length]? = rest.head? := by
    rw [← List.head?_drop, drop_length_sub h]
  rw [settingsIfAny, hhead]
  cases rest with
  | nil => rfl
  | cons x rest =>
      obtain ⟨token, start, stop⟩ := x
      cases token with
      | openBracket => exact settingsAt_suffix hp h
      | _ => rfl

theorem span_of_settingIfAny {xs : List Lexeme} (hsub : xs.Sublist (SchemaDiagram.tokens t)) {s : Setting}
    (hs : s ∈ (listIfAny t xs).settings) : t.HasSpan s.start s.stop := by
  rw [listIfAny.eq_def] at hs
  split at hs
  · exact span_of_setting ((List.sublist_cons_self _ _).trans hsub) hs
  · cases hs

theorem pairwise_settingsIfAny {xs : List Lexeme} (hsub : xs.Sublist (SchemaDiagram.tokens t)) :
    (listIfAny t xs).settings.Pairwise fun s s' => s.stop ≤ s'.start := by
  rw [listIfAny.eq_def]
  split
  · exact pairwise_settings ((List.sublist_cons_self _ _).trans hsub)
  · exact .nil

def readField (t : Text) : Access (Option FieldHead) := do
  match ← readTokens t with
  | name :: type :: rest =>
    if name.isIdentifier && type.isIdentifier then
      let (stop, next, unterminated) ← typeEndFrom (name :: type :: rest) type.stop 2
      let (settings, _, closed) ← settingsIfAny t (name :: type :: rest) next
      return some {
        name := name.name?.getD []
        nameStart := name.start
        nameStop := name.stop
        dataType := (← slice t type.start stop).trimEnd
        typeStart := type.start
        typeStop := stop
        settings
        unterminated := unterminated || !closed }
    else return none
  | _ => return none

theorem readField_eq (t : Text) : readField t = .ok (FieldHead.read? t) := by
  have hp := placed_tokens t
  rw [readField, readTokens_eq, ok_bind, FieldHead.read?]
  generalize tokens t = xs at hp
  rcases xs with _ | ⟨name, _ | ⟨type, rest⟩⟩
  · rfl
  · rfl
  · have hend : typeEndFrom (name :: type :: rest) type.stop 2 = _ := typeEndFrom_eq (by simp)
    have hwithin := within_typeEnd type.stop rest
    generalize hlast : FieldHead.typeEnd type.stop rest = last at hwithin
    have hsuffix : last.rest <:+ name :: type :: rest :=
      (hwithin.1.trans (List.suffix_cons type rest)).trans (List.suffix_cons name _)
    have hslice : slice t type.start last.stop = .ok (t.slice type.start last.stop) := by
      obtain ⟨y, hy, hstop⟩ := hwithin.exists_stop
      rw [hstop]
      exact (hp.sublist (List.sublist_cons_self name _)).slice_eq hy
    simp only [hend, List.drop_succ_cons, List.drop_zero, hlast, ok_bind, settingsIfAny_eq hp hsuffix, hslice,
      pure_eq_ok]
    split <;> rfl

theorem spans_of_field {f : FieldHead} (h : FieldHead.read? t = some f) :
    t.HasSpan f.typeStart f.typeStop ∧ ∀ s ∈ f.settings, t.HasSpan s.start s.stop := by
  rw [FieldHead.read?] at h
  split at h
  · next name type rest htokens =>
      split at h
      · cases h
        have hsub : (type :: rest).Sublist (SchemaDiagram.tokens t) := htokens ▸ List.sublist_cons_self _ _
        obtain ⟨y, hy, hstop⟩ := (within_typeEnd type.stop rest).exists_stop
        refine ⟨hstop ▸ Text.hasSpan_of_sublist hsub hy, fun s hs => ?_⟩
        have hrest := (within_typeEnd type.stop rest).1.sublist
        exact span_of_settingIfAny ((hrest.cons type).trans hsub) hs
      · cases h
  · cases h

theorem pairwise_settings_of_field {f : FieldHead} (h : FieldHead.read? t = some f) :
    f.settings.Pairwise fun s s' => s.stop ≤ s'.start := by
  rw [FieldHead.read?] at h
  split at h
  · next name type rest htokens =>
      split at h
      · cases h
        have hrest := (within_typeEnd type.stop rest).1.sublist
        exact pairwise_settingsIfAny (htokens ▸ (hrest.cons type).cons name)
      · cases h
  · cases h

/-- The type in lower case, cut off in front of its first parenthesis or bracket. -/
def baseTypeOf (f : FieldHead) : Access Text := do
  let cut := (find? (fun rest => rest.head?.any fun c => c == '(' || c == '[') f.dataType).getD f.dataType.bytes
  let word := Text.trim (← upTo f.dataType cut)
  let isMark : Char → Bool := fun c => c == '"'
  return Text.lower ((word.dropWhile isMark).reverse.dropWhile isMark).reverse

theorem find?_head (p : Char → Bool) (t : Text) :
    (find? (fun rest => rest.head?.any p) t).getD t.bytes = Text.bytes (t.takeWhile (!p ·)) := by
  induction t with
  | nil => rfl
  | cons c rest ih =>
      rw [find?, List.takeWhile_cons]
      cases hc : p c with
      | true => simp [hc]
      | false =>
          rw [if_neg (by simp [hc])]
          simp only [Bool.not_false, ↓reduceIte, Text.bytes_cons, ← ih]
          cases find? (fun rest => rest.head?.any p) rest <;> rfl

theorem baseTypeOf_eq (f : FieldHead) : baseTypeOf f = .ok f.baseType := by
  have hmark : f.dataType.takeWhile (fun c => !(c == '(' || c == '[')) =
      f.dataType.takeWhile fun c => c != '(' && c != '[' := by
    simp [bne]
  rw [baseTypeOf, find?_head, upTo_takeWhile, hmark]
  rfl

/-! ## Headers -/

def readTableHeader (t : Text) : Access (Option TableHeader) := do
  match ← readTokens t with
  | x :: rest =>
    if x.isWord "table" then
      let (name, behind) := TableHeader.readName rest
      let (otherName, behind) := TableHeader.readAlias behind
      let (settings, _, _) ← settingsIfAny t (x :: rest) ((x :: rest).length - behind.length)
      return some ⟨x.start, x.stop, name, otherName, settings⟩
    else return none
  | [] => return none

theorem readTableHeader_eq (t : Text) : readTableHeader t = .ok (TableHeader.read? t) := by
  have hp := placed_tokens t
  rw [readTableHeader, readTokens_eq, ok_bind, TableHeader.read?]
  generalize tokens t = xs at hp
  cases xs with
  | nil => rfl
  | cons x rest =>
      have hsuffix : (TableHeader.readAlias (TableHeader.readName rest).2).2 <:+ x :: rest :=
        ((TableHeader.readAlias_suffix _).trans (TableHeader.readName_suffix rest)).trans (List.suffix_cons x rest)
      simp only [settingsIfAny_eq hp hsuffix, ok_bind, pure_eq_ok]
      split
      · rcases (TableHeader.readAlias (TableHeader.readName rest).2).2 with _ | ⟨⟨token, _, _⟩, behind⟩
        · rfl
        · cases token <;> rfl
      · rfl

theorem exists_stop_readParts (stop : Nat) (xs : List Lexeme) :
    (Name.readParts stop xs).2.1 = stop ∨ ∃ x ∈ xs, (Name.readParts stop xs).2.1 = x.stop := by
  fun_induction Name.readParts stop xs with
  | case1 stop x y rest _ part _ parts last after hread ih =>
      rw [hread] at ih
      rcases ih with heq | ⟨z, hz, heq⟩
      · exact .inr ⟨y, by simp, heq⟩
      · exact .inr ⟨z, by simp [hz], heq⟩
  | case2 | case3 | case4 => exact .inl rfl

theorem span_of_name {xs after : List Lexeme} {name : Name} (hsub : xs.Sublist (SchemaDiagram.tokens t))
    (h : Name.read? xs = some (name, after)) : t.HasSpan name.start name.stop := by
  cases xs with
  | nil => cases h
  | cons x rest =>
      obtain ⟨part, -, heq⟩ := Option.map_eq_some_iff.mp h
      obtain ⟨rfl, -⟩ := Prod.mk.inj heq
      change t.HasSpan x.start (Name.readParts x.stop rest).2.1
      rcases exists_stop_readParts x.stop rest with hstop | ⟨y, hy, hstop⟩
      · rw [hstop]
        exact Text.hasSpan_of_sublist hsub List.mem_cons_self
      · rw [hstop]
        exact Text.hasSpan_of_sublist hsub (List.mem_cons_of_mem x hy)

theorem exists_of_readName {xs : List Lexeme} {name : Name} (h : (TableHeader.readName xs).1 = some name) :
    ∃ after, Name.read? xs = some (name, after) := by
  unfold TableHeader.readName at h
  split at h
  · split at h
    · split at h
      · next found after hread =>
          cases h
          exact ⟨after, hread⟩
      · cases h
    · cases h
  · cases h

theorem spans_of_tableHeader {header : TableHeader} (h : TableHeader.read? t = some header) :
    t.HasSpan header.keywordStart header.keywordStop ∧
      ∀ name, header.name = some name → t.HasSpan name.start name.stop := by
  rw [TableHeader.read?] at h
  split at h
  · next x rest htokens =>
      split at h
      · cases h
        refine ⟨Text.hasSpan_of_mem (htokens ▸ List.mem_cons_self), fun name hname => ?_⟩
        obtain ⟨after, hread⟩ := exists_of_readName hname
        exact span_of_name (htokens ▸ List.sublist_cons_self x rest) hread
      · cases h
  · cases h

/-! ## References -/

/-- The reference that the last tokens make up in full. -/
def readRefTokens (t : Text) (tokens xs : List Lexeme) : Access (Option RefBody) := do
  match FieldName.read? xs with
  | some (source, ⟨.op kind, _, _⟩ :: rest) =>
    match FieldName.read? rest with
    | some (target, behind) =>
      let (settings, next, closed) ← settingsIfAny t tokens (tokens.length - behind.length)
      if closed && next = tokens.length then return some ⟨source, kind, target, settings⟩ else return none
    | none => return none
  | _ => return none

theorem rest_listIfAny_suffix (t : Text) (xs : List Lexeme) : (listIfAny t xs).rest <:+ xs := by
  rw [listIfAny.eq_def]
  split
  · exact (rest_settings_suffix t _).trans (List.suffix_cons _ _)
  · exact List.suffix_refl _

theorem decide_length_sub_eq {rest : List Lexeme} (h : rest <:+ tokens) :
    decide (tokens.length - rest.length = tokens.length) = rest.isEmpty := by
  have hle := h.length_le
  rw [Bool.eq_iff_iff, decide_eq_true_eq, List.isEmpty_iff_length_eq_zero]
  omega

theorem readRefTokens_eq (hp : Placed t tokens) {xs : List Lexeme} (h : xs <:+ tokens) :
    readRefTokens t tokens xs = .ok (RefBody.ofTokens? t xs) := by
  rw [readRefTokens, RefBody.ofTokens?]
  rcases hsource : FieldName.read? xs with _ | ⟨source, _ | ⟨⟨token, start, stop⟩, rest⟩⟩
  · rfl
  · rfl
  · cases token with
    | op kind =>
        have hrest := ((List.suffix_cons _ rest).trans (FieldName.read?_suffix hsource)).trans h
        simp only
        rcases htarget : FieldName.read? rest with _ | ⟨target, behind⟩
        · rfl
        · have hbehind := (FieldName.read?_suffix htarget).trans hrest
          have hempty := decide_length_sub_eq ((rest_listIfAny_suffix t behind).trans hbehind)
          simp only [settingsIfAny_eq hp hbehind, ok_bind, hempty]
          rcases behind with _ | ⟨⟨token, _, _⟩, behind⟩
          · rfl
          · cases token with
            | openBracket =>
                simp only [listIfAny]
                split
                · next hlist => exact if_pos hlist
                · next hlist => exact if_neg hlist
            | _ => rfl
    | _ => rfl

def readRefBody (t : Text) : Access (Option RefBody) := do
  let tokens ← readTokens t
  readRefTokens t tokens tokens

theorem readRefBody_eq (t : Text) : readRefBody t = .ok (RefBody.read? t) := by
  rw [readRefBody, readTokens_eq, ok_bind, readRefTokens_eq (placed_tokens t) (List.suffix_refl _)]
  rfl

def readRefStatement (t : Text) : Access (Option RefStatement) := do
  let tokens ← readTokens t
  match tokens with
  | x :: rest =>
    if x.isWord "ref" then
      match rest with
      | ⟨.colon, _, _⟩ :: body => do return (← readRefTokens t tokens body).map (⟨none, ·⟩)
      | name :: ⟨.colon, _, _⟩ :: body =>
        if name.isIdentifier then do return (← readRefTokens t tokens body).map (⟨name.name?, ·⟩) else return none
      | _ => return none
    else return none
  | [] => return none

theorem readRefStatement_eq (t : Text) : readRefStatement t = .ok (RefStatement.read? t) := by
  have hp := placed_tokens t
  rw [readRefStatement, readTokens_eq, ok_bind, RefStatement.read?]
  generalize tokens t = xs at hp
  cases xs with
  | nil => rfl
  | cons x rest =>
      simp only
      split
      · have hbody : ∀ {body}, body <:+ rest → readRefTokens t (x :: rest) body = .ok (RefBody.ofTokens? t body) :=
          fun h => readRefTokens_eq hp (h.trans (List.suffix_cons x rest))
        split
        · rw [hbody (List.suffix_cons _ _)]
          rfl
        · next name start stop body hno =>
          simp only [hbody ((List.suffix_cons _ body).trans (List.suffix_cons name _))]
          split <;> rfl
        · simp only [pure_eq_ok]
      · rfl

/-! ## Lookups -/

/-- What is looked up in the tokens of a text, where nothing fails unless reading the tokens does. -/
def lookUp {α : Type} (t : Text) (a : α) : Access α := do
  let _ ← readTokens t
  return a

theorem lookUp_eq {α : Type} (t : Text) (a : α) : lookUp t a = .ok a := by
  rw [lookUp, readTokens_eq]
  rfl

/-- What is looked up in the first token of a text. -/
def lookUpFirst {α : Type} (t : Text) (a : α) : Access α := do
  let _ ← readFirst t
  return a

theorem lookUpFirst_eq {α : Type} (t : Text) (a : α) : lookUpFirst t a = .ok a := by
  rw [lookUpFirst, readFirst_eq]
  rfl

end Access
end SchemaDiagram
