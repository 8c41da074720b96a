import SchemaDiagram.Proofs.Grammar.Reference

/-! # Items of a list

A list of settings by the places of its tokens: where it ends, where its items stand, and which settings they make.
Brackets are counted from the start of the list, so the comma between two items and the bracket behind the last one
are those where the count is zero.
-/
namespace SchemaDiagram

/-! ## Places in a list -/

/-- At index `i` stands a token of this kind, and nothing is open in front of it; `depth` are open in front of the
list. -/
def Outermost (depth : Nat) (xs : List Lexeme) (token : Token) (i : Nat) : Prop :=
  xs[i]?.map Lexeme.token = some token ∧ nestingBehind depth (xs.take i) = 0

/-- The list ends in front of index `stop`: at the first bracket that closes it, or with the tokens. -/
structure EndsAt (depth : Nat) (xs : List Lexeme) (stop : Nat) (after : Option (List Lexeme)) : Prop where
  unclosed : ∀ i < stop, ¬Outermost depth xs .closeBracket i
  behind : match after with
    | some rest => Outermost depth xs .closeBracket stop ∧ rest = xs.drop (stop + 1)
    | none => stop = xs.length

/-- The tokens from index `i` up to `j` stand between neighbouring commas of a list that ends in front of index
`stop`. -/
structure BetweenCommas (depth : Nat) (xs : List Lexeme) (stop i j : Nat) : Prop where
  le : i ≤ j
  le_stop : j ≤ stop
  whole : ∀ k, i ≤ k → k < j → ¬Outermost depth xs .comma k
  left : ∀ k, i = k + 1 → Outermost depth xs .comma k
  right : j ≠ stop → Outermost depth xs .comma j

variable {depth stop : Nat} {x : Lexeme} {xs : List Lexeme} {token : Token} {after : Option (List Lexeme)}

theorem outermost_zero_iff : Outermost depth (x :: xs) token 0 ↔ x.token = token ∧ depth = 0 := by
  rw [Outermost, List.getElem?_cons_zero, Option.map_some, Option.some.injEq]
  rfl

namespace EndsAt

theorem here (h : x.token = .closeBracket) : EndsAt 0 (x :: xs) 0 (some xs) where
  unclosed := nofun
  behind := ⟨outermost_zero_iff.mpr ⟨h, rfl⟩, rfl⟩

theorem cons (hx : ¬(x.token = .closeBracket ∧ depth = 0)) (h : EndsAt (x.token.nesting depth) xs stop after) :
    EndsAt depth (x :: xs) (stop + 1) after where
  unclosed i hi hclosed := by
    cases i with
    | zero => exact hx (outermost_zero_iff.mp hclosed)
    | succ i => exact h.unclosed i (Nat.lt_of_succ_lt_succ hi) hclosed
  behind := by
    have hbehind := h.behind
    cases after with
    | some rest => exact hbehind
    | none => exact congrArg (· + 1) hbehind

theorem le_length (h : EndsAt depth xs stop after) : stop ≤ xs.length := by
  have hbehind := h.behind
  cases after with
  | some rest =>
      obtain ⟨y, hy, -⟩ := Option.map_eq_some_iff.mp hbehind.1.1
      exact Nat.le_of_lt (List.getElem?_eq_some_iff.mp hy).1
  | none => exact Nat.le_of_eq hbehind

end EndsAt

namespace BetweenCommas

variable {i j : Nat}

theorem zero_iff : BetweenCommas depth xs 0 i j ↔ i = 0 ∧ j = 0 := by
  constructor
  · intro h
    have hle := h.le
    have hstop := h.le_stop
    omega
  · rintro ⟨rfl, rfl⟩
    exact ⟨Nat.le_refl 0, Nat.le_refl 0, by omega, nofun, fun h => absurd rfl h⟩

/-- Behind a token in front, items stand one place further on. -/
theorem succ_succ_iff (hi : i ≠ 0 ∨ (x.token = .comma ∧ depth = 0)) :
    BetweenCommas depth (x :: xs) (stop + 1) (i + 1) (j + 1) ↔ BetweenCommas (x.token.nesting depth) xs stop i j := by
  constructor
  · rintro ⟨hle, hstop, hwhole, hleft, hright⟩
    have hle' := Nat.le_of_succ_le_succ hle
    refine ⟨hle', Nat.le_of_succ_le_succ hstop, fun k hik hkj => ?_, fun k hk => ?_, fun hne => ?_⟩
    · exact hwhole (k + 1) (Nat.succ_le_succ hik) (Nat.succ_lt_succ hkj)
    · exact hleft (k + 1) (congrArg (· + 1) hk)
    · exact hright (fun h => hne (Nat.succ.inj h))
  · rintro ⟨hle, hstop, hwhole, hleft, hright⟩
    refine ⟨Nat.succ_le_succ hle, Nat.succ_le_succ hstop, fun k hik hkj => ?_, fun k hk => ?_, fun hne => ?_⟩
    · cases k with
      | zero => omega
      | succ k => exact hwhole k (Nat.le_of_succ_le_succ hik) (Nat.lt_of_succ_lt_succ hkj)
    · cases k with
      | zero => exact outermost_zero_iff.mpr (hi.resolve_left fun h => h (Nat.succ.inj hk))
      | succ k => exact hleft k (Nat.succ.inj hk)
    · exact hright fun h => hne (congrArg (· + 1) h)

theorem zero_succ_iff (hx : ¬(x.token = .comma ∧ depth = 0)) :
    BetweenCommas depth (x :: xs) (stop + 1) 0 (j + 1) ↔ BetweenCommas (x.token.nesting depth) xs stop 0 j := by
  constructor
  · rintro ⟨-, hstop, hwhole, -, hright⟩
    refine ⟨Nat.zero_le j, Nat.le_of_succ_le_succ hstop, fun k _ hkj => ?_, nofun, fun hne => ?_⟩
    · exact hwhole (k + 1) (Nat.zero_le _) (Nat.succ_lt_succ hkj)
    · exact hright (fun h => hne (Nat.succ.inj h))
  · rintro ⟨-, hstop, hwhole, -, hright⟩
    refine ⟨Nat.zero_le _, Nat.succ_le_succ hstop, fun k _ hkj => ?_, nofun, fun hne => ?_⟩
    · cases k with
      | zero => exact fun h => hx (outermost_zero_iff.mp h)
      | succ k => exact hwhole k (Nat.zero_le k) (Nat.lt_of_succ_lt_succ hkj)
    · exact hright fun h => hne (congrArg (· + 1) h)

/-- A token that is no comma between items makes the first item longer, and no item starts behind it. -/
theorem inside_iff (hx : ¬(x.token = .comma ∧ depth = 0)) :
    BetweenCommas depth (x :: xs) (stop + 1) i j ↔
      i ≠ 1 ∧ ∃ j', j = j' + 1 ∧ BetweenCommas (x.token.nesting depth) xs stop (i - 1) j' := by
  have hfirst : ∀ {k}, BetweenCommas depth (x :: xs) (stop + 1) k 0 → False := fun h =>
    hx (outermost_zero_iff.mp (h.right (Nat.succ_ne_zero stop).symm))
  have hone : ∀ {k}, BetweenCommas depth (x :: xs) (stop + 1) 1 k → False := fun h =>
    hx (outermost_zero_iff.mp (h.left 0 rfl))
  constructor
  · intro h
    obtain _ | j := j
    · exact (hfirst h).elim
    · rcases i with _ | _ | i
      · exact ⟨by decide, j, rfl, (zero_succ_iff hx).mp h⟩
      · exact (hone h).elim
      · exact ⟨by simp, j, rfl, (succ_succ_iff (.inl (Nat.succ_ne_zero i))).mp h⟩
  · rintro ⟨hne, j, rfl, h⟩
    rcases i with _ | _ | i
    · exact (zero_succ_iff hx).mpr h
    · exact absurd rfl hne
    · exact (succ_succ_iff (.inl (Nat.succ_ne_zero i))).mpr h

/-- A comma in front stands behind an item without tokens. -/
theorem comma_iff (hx : x.token = .comma) : BetweenCommas 0 (x :: xs) (stop + 1) i j ↔
    (i = 0 ∧ j = 0) ∨ ∃ i' j', i = i' + 1 ∧ j = j' + 1 ∧ BetweenCommas 0 xs stop i' j' := by
  have hcomma : Outermost 0 (x :: xs) .comma 0 := outermost_zero_iff.mpr ⟨hx, rfl⟩
  have hsucc : ∀ {i j}, BetweenCommas 0 (x :: xs) (stop + 1) (i + 1) (j + 1) ↔ BetweenCommas 0 xs stop i j := by
    intro i j
    rw [succ_succ_iff (.inr ⟨hx, rfl⟩), hx]
    rfl
  constructor
  · intro h
    obtain _ | i := i
    · exact .inl ⟨rfl, by_contra fun hj => h.whole 0 (Nat.le_refl 0) (Nat.pos_of_ne_zero hj) hcomma⟩
    · obtain _ | j := j
      · exact absurd h.le (Nat.not_succ_le_zero i)
      · exact .inr ⟨i, j, rfl, rfl, hsucc.mp h⟩
  · rintro (⟨rfl, rfl⟩ | ⟨i, j, rfl, rfl, h⟩)
    · exact ⟨Nat.le_refl 0, Nat.zero_le _, by omega, nofun, fun _ => hcomma⟩
    · exact hsucc.mpr h

end BetweenCommas

/-! ## The items that are read -/

/-- Where items stand that start at index `start`, with one token between neighbours. -/
def itemBounds : Nat → List (List Lexeme) → List (Nat × Nat)
  | _, [] => []
  | start, item :: items => (start, start + item.length) :: itemBounds (start + item.length + 1) items

theorem itemBounds_succ (start : Nat) (items : List (List Lexeme)) :
    itemBounds (start + 1) items = (itemBounds start items).map fun r => (r.1 + 1, r.2 + 1) := by
  induction items generalizing start with
  | nil => rfl
  | cons item items ih =>
      rw [itemBounds, itemBounds, List.map_cons, ← ih, Nat.add_right_comm start 1]

theorem le_of_mem_itemBounds {start : Nat} {items : List (List Lexeme)} {r : Nat × Nat}
    (h : r ∈ itemBounds start items) : start ≤ r.1 := by
  induction items generalizing start with
  | nil => cases h
  | cons item items ih =>
      rcases List.mem_cons.mp h with rfl | h
      · exact Nat.le_refl start
      · have hle := ih h
        omega

theorem pairwise_itemBounds (start : Nat) (items : List (List Lexeme)) :
    (itemBounds start items).Pairwise fun r s => r.2 < s.1 := by
  induction items generalizing start with
  | nil => exact .nil
  | cons item items ih => exact .cons (fun _ hr => le_of_mem_itemBounds hr) (ih _)

theorem mem_itemBounds_succ_iff {start i j : Nat} {items : List (List Lexeme)} :
    (i, j) ∈ itemBounds (start + 1) items ↔ ∃ i' j', i = i' + 1 ∧ j = j' + 1 ∧ (i', j') ∈ itemBounds start items := by
  rw [itemBounds_succ, List.mem_map]
  constructor
  · rintro ⟨⟨i', j'⟩, hr, ⟨⟩⟩
    exact ⟨i', j', rfl, rfl, hr⟩
  · rintro ⟨i', j', rfl, rfl, hr⟩
    exact ⟨(i', j'), hr, rfl⟩

/-- With a token more in the first item, the first item ends one place further on, and so the others stand there. -/
theorem mem_itemBounds_inside_iff {i j : Nat} {item : List Lexeme} {items : List (List Lexeme)} :
    (i, j) ∈ itemBounds 0 ((x :: item) :: items) ↔
      i ≠ 1 ∧ ∃ j', j = j' + 1 ∧ (i - 1, j') ∈ itemBounds 0 (item :: items) := by
  have hlonger : itemBounds 0 ((x :: item) :: items) =
      (0, item.length + 1) :: itemBounds (item.length + 1 + 1) items := by
    simp [itemBounds]
  have hitem : itemBounds 0 (item :: items) = (0, item.length) :: itemBounds (item.length + 1) items := by
    simp [itemBounds]
  have hpos : ∀ {i j}, (i, j) ∈ itemBounds (item.length + 1) items → i ≠ 0 := fun hr =>
    Nat.ne_of_gt (Nat.lt_of_lt_of_le (Nat.succ_pos _) (le_of_mem_itemBounds hr))
  rw [hlonger, hitem, List.mem_cons, mem_itemBounds_succ_iff]
  simp only [List.mem_cons, Prod.mk.injEq]
  constructor
  · rintro (⟨rfl, rfl⟩ | ⟨i, j, rfl, rfl, hr⟩)
    · exact ⟨by decide, _, rfl, .inl ⟨rfl, rfl⟩⟩
    · exact ⟨fun h => hpos hr (Nat.succ.inj h), j, rfl, .inr hr⟩
  · rintro ⟨hne, j, rfl, ⟨hi, rfl⟩ | hr⟩
    · exact .inl ⟨by omega, rfl⟩
    · have hi := hpos hr
      exact .inr ⟨i - 1, j, by omega, rfl, hr⟩

theorem extract_cons_succ (x : Lexeme) (xs : List Lexeme) (i j : Nat) :
    (x :: xs).extract (i + 1) (j + 1) = xs.extract i j := by
  rw [List.extract_eq_take_drop, List.extract_eq_take_drop, Nat.add_sub_add_right, List.drop_succ_cons]

/-- The items are those of the list, where it ends. -/
structure HasItems (depth : Nat) (xs : List Lexeme) (stop : Nat) (items : List (List Lexeme))
    (after : Option (List Lexeme)) : Prop where
  ends : EndsAt depth xs stop after
  bounds_iff : ∀ i j, (i, j) ∈ itemBounds 0 items ↔ BetweenCommas depth xs stop i j
  extracts : ((itemBounds 0 items).map fun r => xs.extract r.1 r.2) = items

namespace HasItems

variable {item : List Lexeme} {items : List (List Lexeme)}

theorem behindList (hx : x.token = .closeBracket) : HasItems 0 (x :: xs) 0 [[]] (some xs) where
  ends := .here hx
  bounds_iff i j := by simp [itemBounds, BetweenCommas.zero_iff]
  extracts := rfl

theorem nextItem (hx : x.token = .comma) (h : HasItems 0 xs stop items after) :
    HasItems 0 (x :: xs) (stop + 1) ([] :: items) after where
  ends := .cons (by simp [hx]) (by rw [hx]; exact h.ends)
  bounds_iff i j := by
    have hbounds : itemBounds 0 ([] :: items) = (0, 0) :: itemBounds (0 + 1) items := rfl
    rw [hbounds, List.mem_cons, mem_itemBounds_succ_iff, Prod.mk.injEq, BetweenCommas.comma_iff hx]
    simp only [h.bounds_iff]
  extracts := by
    have hbounds : itemBounds 0 ([] :: items) = (0, 0) :: itemBounds (0 + 1) items := rfl
    rw [hbounds, itemBounds_succ, List.map_cons, List.map_map]
    exact congrArg ([] :: ·) ((List.map_congr_left fun r _ => extract_cons_succ x xs r.1 r.2).trans h.extracts)

theorem inside (hclose : ¬(x.token = .closeBracket ∧ depth = 0)) (hcomma : ¬(x.token = .comma ∧ depth = 0))
    (h : HasItems (x.token.nesting depth) xs stop (item :: items) after) :
    HasItems depth (x :: xs) (stop + 1) ((x :: item) :: items) after where
  ends := .cons hclose h.ends
  bounds_iff i j := by
    rw [mem_itemBounds_inside_iff, BetweenCommas.inside_iff hcomma]
    simp only [h.bounds_iff]
  extracts := by
    obtain ⟨hfirst, hmore⟩ := List.cons.inj h.extracts
    rw [itemBounds, List.length_cons, Nat.zero_add, itemBounds_succ, List.map_cons, List.map_map]
    refine congrArg₂ List.cons ?_ ((List.map_congr_left fun r _ => extract_cons_succ x xs r.1 r.2).trans ?_)
    · simpa [List.extract_eq_take_drop] using hfirst
    · simpa using hmore

end HasItems

theorem exists_hasItems {items : List (List Lexeme)} (h : splitItems depth xs = (items, after)) :
    ∃ stop, HasItems depth xs stop items after := by
  induction xs generalizing depth items after with
  | nil =>
      cases h
      exact ⟨0, ⟨nofun, rfl⟩, fun i j => by simp [itemBounds, BetweenCommas.zero_iff], rfl⟩
  | cons x xs ih =>
      rw [splitItems_cons] at h
      rcases ItemStep.of_cases x.token depth with ⟨hstep, hx, rfl⟩ | ⟨hstep, hx, rfl⟩ | ⟨hstep, hx⟩
      · rw [hstep] at h
        cases h
        exact ⟨0, .behindList hx⟩
      · rw [hstep] at h
        cases h
        obtain ⟨stop, hread⟩ := ih rfl
        exact ⟨stop + 1, hread.nextItem hx⟩
      · obtain ⟨item, items, after, hitems⟩ := exists_splitItems (x.token.nesting depth) xs
        simp only [hstep, hitems] at h
        cases h
        obtain ⟨stop, hread⟩ := ih hitems
        have hcomma : ¬(x.token = .comma ∧ depth = 0) := by
          rintro ⟨htoken, rfl⟩
          rw [htoken] at hstep
          cases hstep
        exact ⟨stop + 1, hread.inside hx hcomma⟩

/-! ## Settings -/

theorem Setting.ofItem?_extract (text : Text) {i j : Nat} (hij : i < j) (hj : j ≤ xs.length) :
    ∃ first last, xs[i]? = some first ∧ xs[j - 1]? = some last ∧
      ofItem? text (xs.extract i j) = some ⟨text.slice first.start last.stop, first.start, last.stop⟩ := by
  have hfirst : (xs.extract i j).head? = xs[i]? := by
    rw [List.extract_eq_take_drop, List.head?_take, if_neg (by omega), List.head?_drop]
  have hlast : (xs.extract i j).getLast? = xs[j - 1]? := by
    rw [List.extract_eq_take_drop, List.getLast?_take, if_neg (by omega), List.getElem?_drop,
      show i + (j - i - 1) = j - 1 by omega]
    rw [List.getElem?_eq_getElem (by omega)]
    rfl
  obtain ⟨first, hi⟩ : ∃ first, xs[i]? = some first := ⟨_, List.getElem?_eq_getElem (by omega)⟩
  obtain ⟨last, hj⟩ : ∃ last, xs[j - 1]? = some last := ⟨_, List.getElem?_eq_getElem (by omega)⟩
  exact ⟨first, last, hi, hj, by rw [ofItem?, hfirst, hlast, hi, hj]⟩

/-- The settings are made of the items that are not empty. -/
theorem HasItems.filterMap_ofItem? {items : List (List Lexeme)} (h : HasItems depth xs stop items after) (text : Text) :
    items.filterMap (Setting.ofItem? text) =
      ((itemBounds 0 items).filter fun r => r.1 < r.2).filterMap
        fun r => Setting.ofItem? text (xs.extract r.1 r.2) := by
  conv_lhs => rw [← h.extracts, List.filterMap_map]
  rw [List.filterMap_filter]
  refine List.filterMap_congr fun r _ => ?_
  split
  · rfl
  · next hempty =>
      have hextract : xs.extract r.1 r.2 = [] := by
        rw [List.extract_eq_take_drop, Nat.sub_eq_zero_of_le (by simpa using hempty), List.take_zero]
      rw [Function.comp_apply, hextract]
      rfl

/-- A list of settings is read as it is written. It ends at the first bracket that closes it or with the tokens, its
settings are the runs of tokens between its commas in their order, and each of them stands from its first token to its
last, behind the one before. -/
theorem SettingList.read_asWritten (text : Text) (opening : Nat) :
    let xs := (tokens text).drop (opening + 1)
    let list := read text xs
    ∃ stop runs,
      EndsAt 0 xs stop (if list.closed then some list.rest else none) ∧ (list.closed = false → list.rest = []) ∧
      (∀ i j, (i, j) ∈ runs ↔ i < j ∧ BetweenCommas 0 xs stop i j) ∧ (runs.Pairwise fun r r' => r.2 < r'.1) ∧
      List.Forall₂ (fun r (s : Setting) => ∃ first last, xs[r.1]? = some first ∧ xs[r.2 - 1]? = some last ∧
        s.start = first.start ∧ s.stop = last.stop ∧ s.text = text.slice s.start s.stop) runs list.settings ∧
      (∀ s ∈ list.settings, text.HasSpan s.start s.stop) ∧ list.settings.Pairwise fun s s' => s.stop ≤ s'.start := by
  intro xs list
  have hsub : xs.Sublist (tokens text) := List.drop_sublist _ _
  obtain ⟨items, after, hitems⟩ : ∃ items after, splitItems 0 xs = (items, after) := ⟨_, _, rfl⟩
  obtain ⟨stop, hread⟩ := exists_hasItems hitems
  have hlist : list = ⟨items.filterMap (Setting.ofItem? text), after.getD [], after.isSome⟩ := by
    simp only [list, read, hitems]
  refine ⟨stop, (itemBounds 0 items).filter fun r => r.1 < r.2, ?_, ?_, fun i j => ?_, ?_, ?_, ?_, ?_⟩
  · have hafter : (if list.closed then some list.rest else none) = after := by
      rw [hlist]
      cases after <;> rfl
    rw [hafter]
    exact hread.ends
  · rw [hlist]
    cases after with
    | none => exact fun _ => rfl
    | some rest =>
        intro hopen
        cases hopen
  · rw [List.mem_filter, hread.bounds_iff, decide_eq_true_eq, and_comm]
  · exact (pairwise_itemBounds 0 items).filter _
  · rw [hlist, hread.filterMap_ofItem?]
    refine forall₂_filterMap fun r hr => ?_
    obtain ⟨hmem, hlt⟩ := List.mem_filter.mp hr
    have hle := ((hread.bounds_iff r.1 r.2).mp hmem).le_stop.trans hread.ends.le_length
    obtain ⟨first, last, hfirst, hlast, hsetting⟩ := Setting.ofItem?_extract text (of_decide_eq_true hlt) hle
    exact ⟨_, hsetting, first, last, hfirst, hlast, rfl, rfl, rfl⟩
  · exact fun s hs => Access.span_of_setting hsub hs
  · exact Access.pairwise_settings hsub

/-- A bracket that closes a parenthesis does not end the list. -/
example :
    let list := SettingList.read "[(a, b], , c".toList ((tokens "[(a, b], , c".toList).drop 1)
    list.settings.map Setting.text = ["(a, b]".toList, "c".toList] ∧ list.closed = false := by
  decide +kernel

end SchemaDiagram
