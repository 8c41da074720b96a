import SchemaDiagram.Decimal.Written
import SchemaDiagram.Picture.Markup

/-! # Escaped text

What is escaped has no character of markup left but the marks at the start of entities, and is read back from
them.
-/
namespace SchemaDiagram

/-- The escaped characters with the names of their entities, which follow an ampersand. -/
def entities : List (Char × Text) :=
  [('&', "amp;".toList), ('<', "lt;".toList), ('>', "gt;".toList), ('"', "quot;".toList)]

/-- A character that has a meaning in markup outside entities. -/
def IsMarkup (c : Char) : Prop := c = '<' ∨ c = '>' ∨ c = '"'

instance (c : Char) : Decidable (IsMarkup c) := inferInstanceAs (Decidable (_ ∨ _))

def Text.IsPlain (t : Text) : Prop := ∀ c ∈ t, ¬IsMarkup c

instance (t : Text) : Decidable t.IsPlain := List.decidableBAll _ t

/-- Only the four characters are written with an entity. -/
theorem escapeChar_cases (c : Char) :
    (∃ name, (c, name) ∈ entities ∧ escapeChar c = '&' :: name) ∨ (c ≠ '&' ∧ ¬IsMarkup c ∧ escapeChar c = [c]) := by
  rw [escapeChar]
  split
  · next h => exact .inl ⟨"amp;".toList, by simp [entities, h], rfl⟩
  · split
    · next h => exact .inl ⟨"lt;".toList, by simp [entities, h], rfl⟩
    · split
      · next h => exact .inl ⟨"gt;".toList, by simp [entities, h], rfl⟩
      · split
        · next h => exact .inl ⟨"quot;".toList, by simp [entities, h], rfl⟩
        · next hamp hlt hgt hquot => exact .inr ⟨hamp, by simp [IsMarkup, hlt, hgt, hquot], rfl⟩

theorem not_isMarkup_of_mem_entities {c : Char} {name : Text} (h : (c, name) ∈ entities) :
    ∀ d ∈ name, d ≠ '&' ∧ ¬IsMarkup d := by
  have hall : ∀ e ∈ entities, '&' ∉ e.2 ∧ Text.IsPlain e.2 := by decide
  obtain ⟨hamp, hplain⟩ := hall _ h
  exact fun d hd => ⟨fun heq => hamp (heq ▸ hd), hplain d hd⟩

theorem escape_cons (c : Char) (t : Text) : escape (c :: t) = escapeChar c ++ escape t := List.flatMap_cons

theorem not_isMarkup_of_mem_escape {t : Text} {c : Char} (h : c ∈ escape t) : ¬IsMarkup c := by
  obtain ⟨d, -, hc⟩ := List.mem_flatMap.mp h
  rcases escapeChar_cases d with ⟨name, hname, hd⟩ | ⟨-, hplain, hd⟩
  · rw [hd, List.mem_cons] at hc
    rcases hc with rfl | hc
    · decide
    · exact (not_isMarkup_of_mem_entities hname c hc).2
  · rw [hd, List.mem_singleton] at hc
    exact hc ▸ hplain

/-- Every ampersand of an escaped text starts an entity. -/
theorem exists_entity_of_escape_eq {t before rest : Text} (h : escape t = before ++ '&' :: rest) :
    ∃ e ∈ entities, e.2 <+: rest := by
  induction t generalizing before with
  | nil => simp [escape] at h
  | cons c t ih =>
      rw [escape_cons] at h
      -- the ampersand stands in the written form of the first character, or behind it
      rcases List.append_eq_append_iff.mp h with ⟨mid, -, hrest⟩ | ⟨mid, hmid, hrest⟩
      · exact ih hrest
      · cases mid with
        | nil =>
            have hbehind : escape t = [] ++ '&' :: rest := hrest.symm
            exact ih hbehind
        | cons d mid =>
            obtain ⟨rfl, hbehind⟩ := List.cons_eq_cons.mp hrest
            rcases escapeChar_cases c with ⟨name, hname, hc⟩ | ⟨hamp, -, hc⟩
            · rw [hc] at hmid
              cases before with
              | nil =>
                  cases hmid
                  exact ⟨_, hname, _, hbehind.symm⟩
              | cons d before =>
                  have hmem : '&' ∈ name := by
                    rw [(List.cons_eq_cons.mp hmid).2]
                    simp
                  exact absurd rfl (not_isMarkup_of_mem_entities hname _ hmem).1
            · have hmem : '&' ∈ [c] := by
                rw [← hc, hmid]
                simp
              exact absurd (List.mem_singleton.mp hmem).symm hamp

theorem escape_eq_self {t : Text} (h : ∀ c ∈ t, c ≠ '&' ∧ ¬IsMarkup c) : escape t = t := by
  induction t with
  | nil => rfl
  | cons c t ih =>
      rw [escape_cons, ih fun d hd => h d (List.mem_cons_of_mem c hd)]
      rcases escapeChar_cases c with ⟨name, hname, -⟩ | ⟨-, -, hc⟩
      · have hnot : ∀ e ∈ entities, e.1 = '&' ∨ IsMarkup e.1 := by decide
        exact absurd (hnot _ hname) (not_or.mpr (h c List.mem_cons_self))
      · rw [hc, List.singleton_append]

/-- The text with the characters of the four entities in their place. -/
def unescape : Text → Text
  | '&' :: 'a' :: 'm' :: 'p' :: ';' :: rest => '&' :: unescape rest
  | '&' :: 'l' :: 't' :: ';' :: rest => '<' :: unescape rest
  | '&' :: 'g' :: 't' :: ';' :: rest => '>' :: unescape rest
  | '&' :: 'q' :: 'u' :: 'o' :: 't' :: ';' :: rest => '"' :: unescape rest
  | c :: rest => c :: unescape rest
  | [] => []

theorem unescape_entity {c : Char} {name : Text} (h : (c, name) ∈ entities) (t : Text) :
    unescape ('&' :: name ++ t) = c :: unescape t := by
  simp only [entities, List.mem_cons, Prod.mk.injEq, List.not_mem_nil, or_false] at h
  rcases h with ⟨rfl, rfl⟩ | ⟨rfl, rfl⟩ | ⟨rfl, rfl⟩ | ⟨rfl, rfl⟩ <;> rfl

theorem unescape_cons {c : Char} (h : c ≠ '&') (t : Text) : unescape (c :: t) = c :: unescape t := by
  rw [unescape]
  all_goals
    intros
    contradiction

theorem unescape_escape (t : Text) : unescape (escape t) = t := by
  induction t with
  | nil => rfl
  | cons c t ih =>
      rw [escape_cons]
      rcases escapeChar_cases c with ⟨name, hname, hc⟩ | ⟨hamp, -, hc⟩
      · rw [hc, unescape_entity hname, ih]
      · rw [hc, List.singleton_append, unescape_cons hamp, ih]

/-- A text with every `c` replaced. -/
def replace (c : Char) (written : Text) (t : Text) : Text := t.flatMap fun d => if d = c then written else [d]

/-- Escaping is four replacements in a row, of which that of the ampersand has to be the first. -/
theorem escape_eq_replace (t : Text) :
    escape t = replace '"' "&quot;".toList (replace '>' "&gt;".toList (replace '<' "&lt;".toList
      (replace '&' "&amp;".toList t))) := by
  simp only [escape, replace, List.flatMap_assoc]
  refine congrArg (t.flatMap ·) (funext fun c => ?_)
  rw [escapeChar]
  split
  · rfl
  · rw [List.flatMap_singleton]
    split
    · rfl
    · rw [List.flatMap_singleton]
      split
      · rfl
      · rw [List.flatMap_singleton]

/-! ## Numbers -/

/-- Digits, signs, points and the letters of what is no finite number. -/
def IsNumeral (t : Text) : Prop := ∀ c ∈ t, c.isDigit = true ∨ c ∈ "-.NaNinf".toList

instance (t : Text) : Decidable (IsNumeral t) := List.decidableBAll _ t

theorem IsNumeral.append {s t : Text} (hs : IsNumeral s) (ht : IsNumeral t) : IsNumeral (s ++ t) :=
  List.forall_mem_append.mpr ⟨hs, ht⟩

theorem IsNumeral.subset {s t : Text} (ht : IsNumeral t) (h : s ⊆ t) : IsNumeral s := fun c hc => ht c (h hc)

theorem isNumeral_writeDigits {digits : Text} (h : IsNumeral digits) (exponent : Int) :
    IsNumeral (NumberStyle.plain.writeDigits digits exponent) := by
  have hzeros : ∀ n, IsNumeral (List.replicate n '0') := fun n c hc => .inl (List.eq_of_mem_replicate hc ▸ rfl)
  have hpoint : IsNumeral ['.'] := by decide
  have hstart : IsNumeral "0.".toList := by decide
  simp only [NumberStyle.writeDigits, NumberStyle.plain, if_true]
  split
  · exact (h.append (hzeros _)).append nofun
  · split
    · rw [List.append_cons]
      exact ((h.subset (List.take_subset _ _)).append hpoint).append (h.subset (List.drop_subset _ _))
    · exact (hstart.append (hzeros _)).append h

theorem isNumeral_stripZeros (n : Nat) : IsNumeral (NumberStyle.stripZeros (Nat.toDigits 10 n)).1 := by
  intro c hc
  have hdigit := List.mem_reverse.mp ((List.dropWhile_sublist _).mem (List.mem_reverse.mp hc))
  exact .inl (Nat.isDigit_of_mem_toDigits (by decide) (by decide) hdigit)

theorem isNumeral_write (x : Float) : IsNumeral (NumberStyle.plain.write x) := by
  have hminus : ∀ negative : Bool, IsNumeral (if negative then ['-'] else []) := by decide
  have hzero : IsNumeral ('0' :: NumberStyle.plain.wholeEnd) := by decide
  have hinfinite : ∀ negative, IsNumeral (NumberStyle.plain.infinite negative) := by decide
  simp only [NumberStyle.write]
  generalize Binary64.ofFloat x = b
  cases b with
  | nan => decide
  | infinite negative => exact hinfinite negative
  | finite negative mantissa exponent =>
      simp only
      split
      · exact (hminus negative).append hzero
      · exact (hminus negative).append (isNumeral_writeDigits (isNumeral_stripZeros _) _)

/-- Numbers are written as they are. -/
theorem escape_write (x : Float) : escape (NumberStyle.plain.write x) = NumberStyle.plain.write x := by
  refine escape_eq_self fun c hc => ?_
  rcases isNumeral_write x c hc with hdigit | hc
  · constructor
    · rintro rfl
      cases hdigit
    · rintro (rfl | rfl | rfl) <;> cases hdigit
  · have hamp : '&' ∉ "-.NaNinf".toList := by decide
    have hplain : Text.IsPlain "-.NaNinf".toList := by decide
    exact ⟨fun heq => hamp (heq ▸ hc), hplain c hc⟩

end SchemaDiagram
