import SchemaDiagram.Grammar.Setting
import SchemaDiagram.Proofs.Source.Span

/-! # Checked reading of settings

The items of a list of settings are found by the indices of their first and last tokens. An item that is not
empty is a slice of the text, and its ends are ends of tokens.
-/
namespace SchemaDiagram

/-! ## Steps through a list -/

/-- What a token of a list means, where `depth` brackets and parentheses are open. -/
inductive ItemStep
  | inside (depth : Nat)
  | nextItem
  | behindList

def ItemStep.of : Token → Nat → ItemStep
  | .openParen, depth | .openBracket, depth => inside (depth + 1)
  | .closeBracket, 0 => behindList
  | .closeParen, depth | .closeBracket, depth => inside (depth - 1)
  | .comma, 0 => nextItem
  | _, depth => inside depth

theorem splitItems_cons (depth : Nat) (x : Lexeme) (rest : List Lexeme) :
    splitItems depth (x :: rest) = match ItemStep.of x.token depth with
      | .inside depth => match splitItems depth rest with
        | (item :: items, after) => ((x :: item) :: items, after)
        | ([], after) => ([[x]], after)
      | .nextItem => ([] :: (splitItems 0 rest).1, (splitItems 0 rest).2)
      | .behindList => ([[]], some rest) := by
  obtain ⟨token, start, stop⟩ := x
  cases token <;> cases depth <;> rfl

theorem exists_splitItems (depth : Nat) (xs : List Lexeme) :
    ∃ item items after, splitItems depth xs = (item :: items, after) := by
  induction xs generalizing depth with
  | nil => exact ⟨[], [], none, rfl⟩
  | cons x rest ih =>
      rw [splitItems_cons]
      split
      · next depth' _ =>
          obtain ⟨item, items, after, hitems⟩ := ih depth'
          rw [hitems]
          exact ⟨_, _, _, rfl⟩
      · exact ⟨_, _, _, rfl⟩
      · exact ⟨_, _, _, rfl⟩

/-- The items are made of the tokens in front of what follows the list, in their order. -/
theorem splitItems_sublist {depth : Nat} {xs : List Lexeme} {items : List (List Lexeme)}
    {after : Option (List Lexeme)} (h : splitItems depth xs = (items, after)) :
    (∀ item ∈ items, item.Sublist xs) ∧ after.getD [] <:+ xs := by
  induction xs generalizing depth items after with
  | nil =>
      cases h
      simp
  | cons x rest ih =>
      rw [splitItems_cons] at h
      split at h
      · next depth' _ =>
          obtain ⟨item, more, after', hitems⟩ := exists_splitItems depth' rest
          obtain ⟨hmem, hsuffix⟩ := ih hitems
          rw [hitems] at h
          cases h
          refine ⟨?_, hsuffix.trans (List.suffix_cons x rest)⟩
          rw [List.forall_mem_cons] at hmem ⊢
          exact ⟨hmem.1.cons_cons x, fun i hi => (hmem.2 i hi).cons x⟩
      · obtain ⟨hmem, hsuffix⟩ := ih (rfl : splitItems 0 rest = (_, _))
        cases h
        refine ⟨?_, hsuffix.trans (List.suffix_cons x rest)⟩
        exact List.forall_mem_cons.mpr ⟨List.nil_sublist _, fun i hi => (hmem i hi).cons x⟩
      · cases h
        exact ⟨by simp, List.suffix_cons x rest⟩

/-- No token is in two items, and items follow each other as their tokens do. -/
theorem flatten_splitItems_sublist (depth : Nat) (xs : List Lexeme) :
    (splitItems depth xs).1.flatten.Sublist xs := by
  induction xs generalizing depth with
  | nil => exact List.Sublist.refl _
  | cons x rest ih =>
      rw [splitItems_cons]
      split
      · next depth' _ =>
          have hrest := ih depth'
          obtain ⟨item, items, after, hitems⟩ := exists_splitItems depth' rest
          rw [hitems] at hrest ⊢
          exact hrest.cons_cons x
      · exact (ih 0).cons x
      · exact List.nil_sublist _

namespace Access

variable {t : Text} {tokens : List Lexeme}

/-- The setting that the tokens from index `start` up to `stop` make up, if there are any. -/
def settingOf (t : Text) (tokens : List Lexeme) (start stop : Nat) : Access (Option Setting) :=
  if start < stop then do
    let first ← index tokens start
    let last ← index tokens (← difference stop 1)
    return some ⟨← slice t first.start last.stop, first.start, last.stop⟩
  else return none

theorem settingOf_eq (hp : Placed t tokens) {start stop : Nat} (hstop : stop ≤ tokens.length) :
    settingOf t tokens start stop = .ok (Setting.ofItem? t (tokens.extract start stop)) := by
  rw [settingOf, List.extract_eq_take_drop]
  split
  · next hlt =>
      have hstart : start < tokens.length := Nat.lt_of_lt_of_le hlt hstop
      have hdrop := List.drop_eq_getElem_cons hstart
      have hlast : stop - 1 < tokens.length := by omega
      have htake : ((tokens.drop start).take (stop - start)).getLast? = some tokens[stop - 1] := by
        rw [List.getLast?_take, if_neg (by omega), List.getElem?_drop,
          show start + (stop - start - 1) = stop - 1 by omega,
          List.getElem?_eq_getElem hlast]
        rfl
      have hhead : ((tokens.drop start).take (stop - start)).head? = some tokens[start] := by
        rw [hdrop, List.head?_take, if_neg (by omega)]
        rfl
      have hmem : tokens[stop - 1] ∈ tokens[start] :: tokens.drop (start + 1) := by
        rw [← hdrop]
        exact (List.take_sublist _ _).subset (List.mem_of_getLast? htake)
      have hslice := Placed.slice_eq (hdrop ▸ hp.sublist (List.drop_sublist _ _)) hmem
      rw [index_eq (List.getElem?_eq_getElem hstart), ok_bind, difference_eq (by omega), ok_bind,
        index_eq (List.getElem?_eq_getElem hlast), ok_bind, hslice, Setting.ofItem?, hhead, htake]
      rfl
  · next hlt =>
      rw [Nat.sub_eq_zero_of_le (Nat.le_of_not_lt hlt)]
      rfl

/-- The settings from the token at index `i` on, the index behind the list, and whether the list is closed. The
tokens from index `start` on belong to the first setting. -/
def settingsFrom (t : Text) (tokens : List Lexeme) (depth start i : Nat) : Access (List Setting × Nat × Bool) :=
  match _h : tokens[i]? with
  | some x =>
    match ItemStep.of x.token depth with
    | .inside depth => settingsFrom t tokens depth start (i + 1)
    | .nextItem => do
      let first ← settingOf t tokens start i
      let (settings, next, closed) ← settingsFrom t tokens 0 (i + 1) (i + 1)
      return (first.toList ++ settings, next, closed)
    | .behindList => do return ((← settingOf t tokens start i).toList, i + 1, true)
  | none => do return ((← settingOf t tokens start tokens.length).toList, tokens.length, false)
termination_by tokens.length - i
decreasing_by
  all_goals
    have := (List.getElem?_eq_some_iff.mp ‹_›).1
    omega

theorem drop_eq_cons {i : Nat} {x : Lexeme} (h : tokens[i]? = some x) :
    tokens.drop i = x :: tokens.drop (i + 1) := by
  obtain ⟨hlt, rfl⟩ := List.getElem?_eq_some_iff.mp h
  exact List.drop_eq_getElem_cons hlt

theorem extract_succ {start i : Nat} {x : Lexeme} (hle : start ≤ i) (hx : tokens[i]? = some x) :
    tokens.extract start (i + 1) = tokens.extract start i ++ [x] := by
  rw [List.extract_eq_take_drop, List.extract_eq_take_drop, Nat.sub_add_comm hle, List.take_add_one,
    List.getElem?_drop, Nat.add_sub_cancel' hle, hx]
  rfl

theorem toList_append_filterMap {α β : Type} (f : α → Option β) (a : α) (as : List α) :
    (f a).toList ++ as.filterMap f = (a :: as).filterMap f := by
  rw [List.filterMap_cons]
  cases f a <;> rfl

theorem settingsFrom_eq (hp : Placed t tokens) {depth start i : Nat} (hle : start ≤ i) (hi : i ≤ tokens.length)
    {item : List Lexeme} {items : List (List Lexeme)} {after : Option (List Lexeme)}
    (h : splitItems depth (tokens.drop i) = (item :: items, after)) :
    settingsFrom t tokens depth start i =
      .ok (((tokens.extract start i ++ item) :: items).filterMap (Setting.ofItem? t),
        tokens.length - (after.getD []).length, after.isSome) := by
  fun_induction settingsFrom t tokens depth start i generalizing item items after with
  | case1 depth start i x hx depth' hstep ih =>
      have hlt := (List.getElem?_eq_some_iff.mp hx).1
      rw [drop_eq_cons hx, splitItems_cons, hstep] at h
      obtain ⟨item', items', after', hitems⟩ := exists_splitItems depth' (tokens.drop (i + 1))
      simp only [hitems, Prod.mk.injEq, List.cons.injEq] at h
      obtain ⟨⟨rfl, rfl⟩, rfl⟩ := h
      rw [ih (Nat.le_succ_of_le hle) hlt hitems, extract_succ hle hx, List.append_assoc]
      rfl
  | case2 depth start i x hx hstep ih =>
      have hlt := (List.getElem?_eq_some_iff.mp hx).1
      rw [drop_eq_cons hx, splitItems_cons, hstep] at h
      obtain ⟨item', items', after', hitems⟩ := exists_splitItems 0 (tokens.drop (i + 1))
      simp only [hitems, Prod.mk.injEq, List.cons.injEq] at h
      obtain ⟨⟨rfl, rfl⟩, rfl⟩ := h
      have hempty : tokens.extract (i + 1) (i + 1) = [] := by simp
      rw [settingOf_eq hp hi, ok_bind, ih (Nat.le_refl _) hlt hitems, hempty, List.append_nil,
        ← toList_append_filterMap _ (tokens.extract start i)]
      rfl
  | case3 depth start i x hx hstep =>
      have hlt := (List.getElem?_eq_some_iff.mp hx).1
      rw [drop_eq_cons hx, splitItems_cons, hstep] at h
      simp only [Prod.mk.injEq, List.cons.injEq] at h
      obtain ⟨⟨rfl, rfl⟩, rfl⟩ := h
      have hnext : tokens.length - (tokens.length - (i + 1)) = i + 1 := Nat.sub_sub_self hlt
      rw [settingOf_eq hp hi, List.append_nil, Option.getD_some, List.length_drop, hnext, ← toList_append_filterMap,
        List.filterMap_nil, List.append_nil]
      rfl
  | case4 depth start i hx =>
      have hend : i = tokens.length := Nat.le_antisymm hi (List.getElem?_eq_none_iff.mp hx)
      subst hend
      rw [List.drop_length] at h
      cases h
      rw [settingOf_eq hp (Nat.le_refl _), List.append_nil, ← toList_append_filterMap, List.filterMap_nil,
        List.append_nil]
      rfl

/-- The list whose opening bracket is the token at an index. -/
def settingsAt (t : Text) (tokens : List Lexeme) (opening : Nat) : Access (List Setting × Nat × Bool) :=
  settingsFrom t tokens 0 (opening + 1) (opening + 1)

theorem settingsAt_eq (hp : Placed t tokens) {opening : Nat} (h : opening < tokens.length) :
    settingsAt t tokens opening =
      let list := SettingList.read t (tokens.drop (opening + 1))
      .ok (list.settings, tokens.length - list.rest.length, list.closed) := by
  obtain ⟨item, items, after, hitems⟩ := exists_splitItems 0 (tokens.drop (opening + 1))
  have hempty : tokens.extract (opening + 1) (opening + 1) = [] := by simp
  rw [settingsAt, settingsFrom_eq hp (Nat.le_refl _) h hitems, SettingList.read, hitems, hempty]
  rfl

/-! ## Places of settings -/

theorem span_of_setting {xs : List Lexeme} (hsub : xs.Sublist (SchemaDiagram.tokens t)) {s : Setting}
    (hs : s ∈ (SettingList.read t xs).settings) : t.HasSpan s.start s.stop := by
  obtain ⟨item, hitem, hs⟩ := List.mem_filterMap.mp hs
  have hitem := (splitItems_sublist (rfl : splitItems 0 xs = (_, _))).1 item hitem
  cases item with
  | nil => cases hs
  | cons first more =>
      obtain ⟨last, hlast⟩ : ∃ last, (first :: more).getLast? = some last := ⟨_, List.getLast?_cons⟩
      rw [Setting.ofItem?, List.head?_cons, hlast] at hs
      cases hs
      exact Text.hasSpan_of_sublist (hitem.trans hsub) (List.mem_of_getLast? hlast)

theorem exists_of_ofItem? {item : List Lexeme} {s : Setting} (h : Setting.ofItem? t item = some s) :
    (∃ first ∈ item, s.start = first.start) ∧ ∃ last ∈ item, s.stop = last.stop := by
  rw [Setting.ofItem?] at h
  split at h
  · next first last hfirst hlast =>
      cases h
      exact ⟨⟨first, List.mem_of_head? hfirst, rfl⟩, last, List.mem_of_getLast? hlast, rfl⟩
  · cases h

/-- Every setting ends in front of the next one. -/
theorem pairwise_settings {xs : List Lexeme} (hsub : xs.Sublist (SchemaDiagram.tokens t)) :
    (SettingList.read t xs).settings.Pairwise fun s s' => s.stop ≤ s'.start := by
  have hordered := ((placed_tokens t).sublist ((flatten_splitItems_sublist 0 xs).trans hsub)).ordered
  have hitems := (List.pairwise_flatten.mp hordered).2
  refine hitems.filterMap _ fun item item' h s hs s' hs' => ?_
  obtain ⟨-, last, hlast, hstop⟩ := exists_of_ofItem? hs
  obtain ⟨⟨first, hfirst, hstart⟩, -⟩ := exists_of_ofItem? hs'
  rw [hstop, hstart]
  exact h last hlast first hfirst

theorem rest_settings_suffix (t : Text) (xs : List Lexeme) : (SettingList.read t xs).rest <:+ xs :=
  (splitItems_sublist (rfl : splitItems 0 xs = (_, _))).2

end Access
end SchemaDiagram
