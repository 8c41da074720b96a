import SchemaDiagram.Proofs.Access.Grammar
import SchemaDiagram.Proofs.Source.Prefix

/-! # Fields that are still being written

Whoever writes the settings of a field has written its name and its type. So the front of a field, cut off anywhere
behind the bracket that opens the settings, has the same name and the same type, and its settings are those of the
whole field, up to the one that the cut is in.
-/
namespace SchemaDiagram

variable {stop : Nat} {xs ys more : List Lexeme}

/-! ## Ends of types -/

namespace FieldHead

/-- Which parenthesis closes another one does not depend on what stands behind it. -/
theorem exists_closeParen?_append {depth closed : Nat} {after : List Lexeme}
    (h : closeParen? depth xs = some (closed, after)) :
    ∃ inside, xs = inside ++ after ∧ ∀ more, closeParen? depth (inside ++ more) = some (closed, more) := by
  induction xs generalizing depth with
  | nil => cases h
  | cons x rest ih =>
      have hlater : ∀ {depth : Nat}, closeParen? depth rest = some (closed, after) →
          ∃ inside, x :: rest = (x :: inside) ++ after ∧
            ∀ more, closeParen? depth (inside ++ more) = some (closed, more) := by
        intro depth h
        obtain ⟨inside, hrest, hinside⟩ := ih h
        exact ⟨inside, congrArg (x :: ·) hrest, hinside⟩
      obtain ⟨token, start, stop⟩ := x
      cases token with
      | openParen => exact (hlater h).imp' _ fun _ => id
      | closeParen =>
          cases depth with
          | zero =>
              cases h
              exact ⟨[⟨.closeParen, start, stop⟩], rfl, fun _ => rfl⟩
          | succ depth => exact (hlater h).imp' _ fun _ => id
      | _ => exact (hlater h).imp' _ fun _ => id

theorem closeParen?_eq_none_of_cut {depth : Nat} (h : closeParen? depth ys = none) (hcut : CutAt stop xs ys) :
    closeParen? depth xs = none := by
  induction hcut generalizing depth with
  | behind => rfl
  | @torn x y ys hx =>
      obtain ⟨token, start, stop⟩ := x
      cases token with
      | word | str | backtick | op => rfl
      | _ => exact hx.elim
  | @same x xs ys hcut ih =>
      obtain ⟨token, start, stop⟩ := x
      cases token with
      | closeParen =>
          cases depth with
          | zero => cases h
          | succ depth => exact ih h
      | _ => exact ih h

/-- A type that ends in front of an opening bracket ends there too if the tokens are cut off behind it. -/
theorem exists_typeEnd_cut {reached : Nat} {opening : Lexeme} (h : (typeEnd reached ys).rest = opening :: more)
    (hopening : opening.token = .openBracket) :
    ∃ front, ys = front ++ opening :: more ∧ ∀ stop xs, CutAt stop xs more →
      typeEnd reached (front ++ opening :: xs) =
        ⟨(typeEnd reached ys).stop, opening :: xs, (typeEnd reached ys).unterminated⟩ := by
  fun_induction typeEnd reached ys with
  | case1 => cases h
  | case2 reached x hdot y after hpart ih =>
      obtain ⟨front, rfl, hfront⟩ := ih h
      refine ⟨x :: y :: front, rfl, fun stop xs hxs => ?_⟩
      rw [← hfront stop xs hxs, List.cons_append, List.cons_append, typeEnd.eq_def]
      simp only [hdot, hpart, ↓reduceIte]
  | case3 reached x hdot y after hpart => exact absurd ((List.cons.inj h).1 ▸ hdot) (by simp [hopening])
  | case4 reached x hdot => exact absurd ((List.cons.inj h).1 ▸ hdot) (by simp [hopening])
  | case5 reached x rest hparen closed after hclose ih =>
      obtain ⟨front, rfl, hfront⟩ := ih h
      obtain ⟨inside, rfl, hinside⟩ := exists_closeParen?_append hclose
      refine ⟨x :: (inside ++ front), by simp, fun stop xs hxs => ?_⟩
      rw [← hfront stop xs hxs, List.cons_append, List.append_assoc, Access.typeEnd_openParen_of_some hparen (hinside _)]
  | case6 reached x rest hparen hclose inside =>
      have hsplit : inside ++ opening :: more = rest := by
        rw [← show rest.dropWhile (·.token != .openBracket) = opening :: more from h]
        exact List.takeWhile_append_dropWhile
      have hinside : ∀ y ∈ inside, (y.token != .openBracket) = true := List.all_eq_true.mp List.all_takeWhile
      refine ⟨x :: inside, by rw [List.cons_append, hsplit], fun stop xs hxs => ?_⟩
      have hcut : CutAt stop (inside ++ opening :: xs) rest := hsplit ▸ (CutAt.same hxs).append inside
      have htake : (inside ++ opening :: xs).takeWhile (·.token != .openBracket) = inside := by
        simp [List.takeWhile_append_of_pos hinside, hopening]
      have hdrop : (inside ++ opening :: xs).dropWhile (·.token != .openBracket) = opening :: xs := by
        simp [List.dropWhile_append_of_pos hinside, hopening]
      rw [List.cons_append, Access.typeEnd_openParen_of_none hparen (closeParen?_eq_none_of_cut hclose hcut), htake,
        hdrop]
  | case7 reached x hbracket y after hpair ih =>
      obtain ⟨front, rfl, hfront⟩ := ih h
      refine ⟨x :: y :: front, rfl, fun stop xs hxs => ?_⟩
      rw [← hfront stop xs hxs, List.cons_append, List.cons_append, typeEnd.eq_def]
      simp only [hbracket, hpair, and_self, ↓reduceIte]
  | case8 reached x hbracket y after hpair =>
      obtain ⟨rfl, rfl⟩ := List.cons.inj h
      refine ⟨[], rfl, fun stop xs hxs => ?_⟩
      rw [List.nil_append, typeEnd.eq_def]
      cases hxs with
      | behind => simp only [hbracket]
      | @torn y' _ _ hlong =>
          have hopen : ¬y'.token = .closeBracket := fun hclose => by simp [hclose, Token.IsLong] at hlong
          simp only [hbracket, hopen, and_false, ↓reduceIte]
      | same => simp only [hbracket, hpair, ↓reduceIte]
  | case9 reached x hbracket =>
      obtain ⟨rfl, rfl⟩ := List.cons.inj h
      refine ⟨[], rfl, fun stop xs hxs => ?_⟩
      cases hxs
      rw [List.nil_append, typeEnd.eq_def]
      simp only [hbracket]
  | case10 reached x rest hdot hparen hbracket =>
      exact absurd ((List.cons.inj h).1 ▸ hopening) hbracket

end FieldHead

/-! ## Items of a list -/

theorem splitItems_cut (h : CutAt stop xs ys) (depth : Nat) :
    ∃ front last items, (splitItems depth xs).1 = front ++ [last] ∧ (splitItems depth ys).1 = front ++ items := by
  induction h generalizing depth with
  | behind => exact ⟨[], [], _, rfl, rfl⟩
  | @torn x y ys hx =>
      obtain ⟨token, start, stop⟩ := x
      cases token with
      | word | str | backtick | op => exact ⟨[], [_], _, rfl, rfl⟩
      | _ => exact hx.elim
  | @same x xs ys h ih =>
      rw [splitItems_cons, splitItems_cons]
      cases ItemStep.of x.token depth with
      | inside depth =>
          obtain ⟨front, last, items, hxs, hys⟩ := ih depth
          obtain ⟨item, more, after, hitems⟩ := exists_splitItems depth xs
          obtain ⟨item', more', after', hitems'⟩ := exists_splitItems depth ys
          rw [hitems] at hxs
          rw [hitems'] at hys
          simp only [hitems, hitems']
          cases front with
          | nil =>
              obtain ⟨rfl, rfl⟩ := List.cons.inj hxs
              exact ⟨[], x :: item, _, rfl, rfl⟩
          | cons first front =>
              obtain ⟨rfl, rfl⟩ := List.cons.inj hxs
              obtain ⟨rfl, rfl⟩ := List.cons.inj hys
              exact ⟨(x :: item') :: front, last, items, rfl, rfl⟩
      | nextItem =>
          obtain ⟨front, last, items, hxs, hys⟩ := ih 0
          exact ⟨[] :: front, last, items, congrArg ([] :: ·) hxs, congrArg ([] :: ·) hys⟩
      | behindList => exact ⟨[], [], _, rfl, rfl⟩

/-! ## Settings -/

theorem Text.HasSpan.slice_append {t : Text} {start stop : Nat} (h : t.HasSpan start stop) (more : Text) :
    (t ++ more).slice start stop = t.slice start stop := by
  obtain ⟨before, part, after, rfl, rfl, rfl, hpart⟩ := h.exists_cut
  rw [hpart, List.append_assoc, List.append_assoc, bytes_append, Text.slice_append]

theorem Setting.ofItem?_append {t : Text} {item : List Lexeme} (h : item.Sublist (tokens t)) (more : Text) :
    ofItem? (t ++ more) item = ofItem? t item := by
  cases item with
  | nil => rfl
  | cons first rest =>
      obtain ⟨last, hlast⟩ : ∃ last, (first :: rest).getLast? = some last := ⟨_, List.getLast?_cons⟩
      have hspan := Text.hasSpan_of_sublist h (List.mem_of_getLast? hlast)
      simp only [ofItem?, List.head?_cons, hlast, hspan.slice_append]

/-- All settings but the last one are those of the list that is not cut off. -/
theorem SettingList.take_settings_cut {t : Text} (hxs : xs.Sublist (tokens t)) (hcut : CutAt stop xs ys)
    (more : Text) :
    let settings := (SettingList.read t xs).settings
    settings.take (settings.length - 1) =
      (SettingList.read (t ++ more) ys).settings.take (settings.length - 1) := by
  obtain ⟨front, last, items, hfront, hitems⟩ := splitItems_cut hcut 0
  have hsub := (splitItems_sublist (rfl : splitItems 0 xs = (_, _))).1
  have hsame : front.filterMap (Setting.ofItem? (t ++ more)) = front.filterMap (Setting.ofItem? t) := by
    refine List.filterMap_congr fun item hitem => Setting.ofItem?_append ((hsub item ?_).trans hxs) more
    rw [hfront]
    exact List.mem_append_left _ hitem
  have hlast : ([last].filterMap (Setting.ofItem? t)).length ≤ 1 := List.length_filterMap_le _ _
  simp only [SettingList.read, hfront, hitems, List.filterMap_append, hsame, List.length_append]
  rw [List.take_append_of_le_length (by omega), List.take_append_of_le_length (by omega)]

namespace FieldHead

/-! ## Fields -/

/-- The byte of the bracket that opens the settings of a field. -/
def settingsStart? (source : Text) : Option Nat :=
  match tokens source with
  | _ :: type :: rest =>
    match (typeEnd type.stop rest).rest with
    | ⟨.openBracket, start, _⟩ :: _ => some start
    | _ => none
  | _ => none

/-- The same name and the same type, at the same bytes. -/
structure SameHead (f g : FieldHead) : Prop where
  name : f.name = g.name
  nameStart : f.nameStart = g.nameStart
  nameStop : f.nameStop = g.nameStop
  dataType : f.dataType = g.dataType
  typeStart : f.typeStart = g.typeStart
  typeStop : f.typeStop = g.typeStop

theorem exists_of_settingsStart? {source : Text} {k : Nat} (h : settingsStart? source = some k) :
    ∃ name type rest opening more, tokens source = name :: type :: rest ∧
      (typeEnd type.stop rest).rest = opening :: more ∧ opening.token = .openBracket ∧ opening.start = k := by
  rw [settingsStart?] at h
  split at h
  · next name type rest htokens =>
      split at h
      · next start stop more hrest =>
          exact ⟨name, type, rest, _, more, htokens, hrest, rfl, Option.some.inj h⟩
      · cases h
  · cases h

theorem read?_bracketed {source : Text} {name type opening : Lexeme} {rest : List Lexeme} {last : Nat} {unclosed : Bool}
    (htokens : tokens source = name :: type :: rest) (hend : typeEnd type.stop rest = ⟨last, opening :: more, unclosed⟩)
    (hopening : opening.token = .openBracket) :
    read? source =
      let list := SettingList.read source more
      if name.isIdentifier && type.isIdentifier then
        some ⟨name.name?.getD [], name.start, name.stop, (source.slice type.start last).trimEnd, type.start, last,
          list.settings, unclosed || !list.closed⟩
      else none := by
  obtain ⟨token, start, stop⟩ := opening
  obtain rfl : token = .openBracket := hopening
  rw [read?, htokens]
  simp only [hend]

/-- Behind the bracket that opens the settings, what is written of a field keeps its name and its type, and every
setting that another one follows. -/
theorem exists_read?_of_prefix {s p : Text} {f : FieldHead} {k : Nat} (hread : read? s = some f)
    (hk : settingsStart? s = some k) (hp : p <+: s) (hlt : k < p.bytes) :
    ∃ g, read? p = some g ∧ g.SameHead f ∧
      g.settings.take (g.settings.length - 1) = f.settings.take (g.settings.length - 1) := by
  obtain ⟨more, rfl⟩ := hp
  obtain ⟨name, type, rest, opening, behind, htokens, hend, hopening, rfl⟩ := exists_of_settingsStart? hk
  obtain ⟨front, rfl, hfront⟩ := exists_typeEnd_cut hend hopening
  generalize hwhole : typeEnd type.stop (front ++ opening :: behind) = whole at hend hfront
  obtain ⟨last, after, unclosed⟩ := whole
  obtain rfl : after = opening :: behind := hend
  -- the tokens of the front are the same up to the bracket, so the type ends at the same byte
  have hcut := cutAt_tokens p more
  rw [htokens, ← List.cons_append, ← List.cons_append] at hcut
  have hlong : ¬opening.token.IsLong := by rw [hopening]; exact id
  obtain ⟨xs, hxs, hbehind⟩ := hcut.exists_of_append hlong hlt
  have hfront := hfront p.bytes xs hbehind
  have hspan : p.HasSpan type.start last := by
    obtain ⟨y, hy, hlast⟩ := (Access.within_typeEnd type.stop (front ++ opening :: xs)).exists_stop
    rw [hfront] at hlast
    obtain rfl : last = y.stop := hlast
    exact Text.hasSpan_of_sublist (hxs ▸ List.sublist_cons_self _ _) hy
  have hsub : xs.Sublist (tokens p) := by
    rw [hxs]
    exact (List.sublist_cons_self opening xs).trans (List.sublist_append_right _ _)
  have hsettings := SettingList.take_settings_cut hsub hbehind more
  rw [read?_bracketed htokens hwhole hopening] at hread
  obtain ⟨hident, hf⟩ := Option.ite_none_right_eq_some.mp hread
  obtain rfl := Option.some.inj hf
  refine ⟨_, (read?_bracketed hxs hfront hopening).trans (if_pos hident), ⟨rfl, rfl, rfl, ?_, rfl, rfl⟩, hsettings⟩
  exact congrArg Text.trimEnd (hspan.slice_append more).symm

/-- A field, and its front that ends inside the string of its second setting. -/
theorem exists_read?_of_torn_note :
    let s : Text := "price decimal(10, 2) [not null, note: 'a, b', unique]".toList
    let p : Text := "price decimal(10, 2) [not null, note: 'a, ".toList
    ∃ f g, read? s = some f ∧ settingsStart? s = some 21 ∧ p <+: s ∧ 21 < p.bytes ∧ read? p = some g ∧
      g.SameHead f ∧ g.settings.length = 2 ∧ g.settings.take 1 = f.settings.take 1 := by
  intro s p
  obtain ⟨f, hread⟩ : ∃ f, read? s = some f := Option.isSome_iff_exists.mp (by decide +kernel)
  have hk : settingsStart? s = some 21 := by decide +kernel
  have hp : p <+: s := ⟨"b', unique]".toList, by decide +kernel⟩
  have hlt : 21 < p.bytes := by decide +kernel
  obtain ⟨g, hg, hhead, hsettings⟩ := exists_read?_of_prefix hread hk hp hlt
  have hlength : g.settings.length = 2 := by
    have hcount : (read? p).map (·.settings.length) = some 2 := by decide +kernel
    simpa [hg] using hcount
  rw [hlength] at hsettings
  exact ⟨f, g, hread, hk, hp, hlt, hg, hhead, hlength, hsettings⟩

end FieldHead
end SchemaDiagram
