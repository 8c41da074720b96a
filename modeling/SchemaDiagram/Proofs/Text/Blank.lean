import Mathlib.Data.List.Induction
import Mathlib.Data.List.TakeWhile
import SchemaDiagram.Text.Blank

/-! # Dropping blanks -/
namespace SchemaDiagram
namespace Text

def IsBlanks (t : Text) : Prop := ∀ c ∈ t, isBlank c = true

theorem exists_trimStart_eq (t : Text) : ∃ blanks, IsBlanks blanks ∧ blanks ++ trimStart t = t :=
  ⟨t.takeWhile isBlank, fun c hc => List.all_eq_true.mp List.all_takeWhile c hc, List.takeWhile_append_dropWhile⟩

theorem exists_trimEnd_eq (t : Text) : ∃ blanks, IsBlanks blanks ∧ trimEnd t ++ blanks = t := by
  induction t with
  | nil => exact ⟨[], nofun, rfl⟩
  | cons c rest ih =>
      obtain ⟨blanks, hblanks, hrest⟩ := ih
      rw [trimEnd]
      split
      · next hnil =>
          rw [hnil] at hrest
          split
          · next hc =>
              refine ⟨c :: rest, ?_, rfl⟩
              rintro d (_ | ⟨_, hd⟩)
              · exact hc
              · exact hblanks d (by rwa [← hrest] at hd)
          · exact ⟨blanks, hblanks, congrArg (c :: ·) hrest⟩
      · exact ⟨blanks, hblanks, congrArg (c :: ·) hrest⟩

/-- A text is what is left of it without blanks around it, between other characters. -/
theorem exists_trim_eq (t : Text) :
    ∃ front back, t = front ++ (trim t ++ back) ∧ bytes front + bytes (trimStart t) = bytes t := by
  obtain ⟨front, -, hfront⟩ := exists_trimStart_eq t
  obtain ⟨back, -, hback⟩ := exists_trimEnd_eq (trimStart t)
  exact ⟨front, back, by rw [trim, hback, hfront], by rw [← bytes_append, hfront]⟩

theorem trimEnd_concat {c : Char} (h : isBlank c = false) (t : Text) : trimEnd (t ++ [c]) = t ++ [c] := by
  induction t with
  | nil => simp [trimEnd, h]
  | cons d t ih =>
      rw [List.cons_append, trimEnd, ih]
      split
      · next hnil => simp at hnil
      · rfl

theorem trimEnd_concat_blank {c : Char} (h : isBlank c = true) (t : Text) : trimEnd (t ++ [c]) = trimEnd t := by
  have hc : trimEnd [c] = [] := by simp [trimEnd, h]
  induction t with
  | nil => exact hc
  | cons d t ih => rw [List.cons_append, trimEnd, ih, trimEnd]

theorem trimEnd_append_blanks (t : Text) {blanks : Text} (h : IsBlanks blanks) :
    trimEnd (t ++ blanks) = trimEnd t := by
  induction blanks using List.reverseRecOn with
  | nil => rw [List.append_nil]
  | append_singleton blanks c ih =>
      rw [← List.append_assoc, trimEnd_concat_blank (h c (by simp))]
      exact ih fun d hd => h d (List.mem_append_left _ hd)

theorem trimEnd_append {t : Text} (h : trimEnd t ≠ []) (before : Text) :
    trimEnd (before ++ t) = before ++ trimEnd t := by
  induction before with
  | nil => rfl
  | cons c before ih =>
      rw [List.cons_append, trimEnd, ih]
      split
      · next hnil => exact absurd (List.append_eq_nil_iff.mp hnil).2 h
      · rfl

theorem trimEnd_append_cons {c : Char} (h : isBlank c = false) (before t : Text) :
    trimEnd (before ++ c :: t) = before ++ c :: trimEnd t := by
  have hc : trimEnd (c :: t) = c :: trimEnd t := by
    rw [trimEnd]
    split <;> simp_all
  rw [trimEnd_append (by rw [hc]; exact List.cons_ne_nil _ _), hc]

theorem trimStart_append_cons {c : Char} (h : isBlank c = false) (before t : Text) :
    trimStart (before ++ c :: t) = trimStart before ++ c :: t := by
  rw [trimStart, List.dropWhile_append, List.dropWhile_cons_of_neg (by simp [h])]
  split
  · next hnil => rw [trimStart, List.isEmpty_iff.mp hnil, List.nil_append]
  · rfl

theorem trimEnd_trimEnd (t : Text) : trimEnd (trimEnd t) = trimEnd t := by
  obtain ⟨blanks, hblanks, ht⟩ := exists_trimEnd_eq t
  rw [← trimEnd_append_blanks _ hblanks, ht]

theorem trim_append_blanks (t : Text) {blanks : Text} (h : IsBlanks blanks) : trim (t ++ blanks) = trim t := by
  induction t with
  | nil =>
      have hstart : trimStart blanks = [] := List.dropWhile_eq_nil_iff.mpr h
      rw [List.nil_append, trim, hstart]
      rfl
  | cons c t ih =>
      by_cases hc : isBlank c = true
      · simpa [trim, trimStart, hc] using ih
      · simpa [trim, trimStart, hc] using trimEnd_append_blanks (c :: t) h

theorem isBlanks_of_trim_eq_nil {t : Text} (h : trim t = []) : IsBlanks t := by
  obtain ⟨before, hbefore, ht⟩ := exists_trimStart_eq t
  obtain ⟨blanks, hblanks, htrim⟩ := exists_trimEnd_eq (trimStart t)
  rw [show trimEnd (trimStart t) = [] from h, List.nil_append] at htrim
  intro c hc
  rw [← ht, ← htrim, List.mem_append] at hc
  rcases hc with hc | hc
  · exact hbefore c hc
  · exact hblanks c hc

theorem trim_trimEnd (t : Text) : trim (trimEnd t) = trim t := by
  obtain ⟨blanks, hblanks, ht⟩ := exists_trimEnd_eq t
  rw [← trim_append_blanks _ hblanks, ht]

theorem trim_blanks_append {blanks : Text} (h : IsBlanks blanks) (t : Text) : trim (blanks ++ t) = trim t := by
  rw [trim, trim, trimStart, trimStart, List.dropWhile_append_of_pos h]

theorem trimEnd_of_forall {t : Text} (h : ∀ c ∈ t, isBlank c = false) : trimEnd t = t := by
  cases t using List.reverseRecOn with
  | nil => rfl
  | append_singleton t c => exact trimEnd_concat (h c (by simp)) t

theorem trim_of_forall {t : Text} (h : ∀ c ∈ t, isBlank c = false) : trim t = t := by
  have hstart : trimStart t = t := by
    cases t with
    | nil => rfl
    | cons c t => exact List.dropWhile_cons_of_neg (by simp [h c])
  rw [trim, hstart, trimEnd_of_forall h]

/-! ## Deleting blanks -/

/-- What is left of a text without its blanks. -/
def withoutBlanks (t : Text) : Text := t.filter (!isBlank ·)

theorem withoutBlanks_append (s t : Text) : withoutBlanks (s ++ t) = withoutBlanks s ++ withoutBlanks t :=
  List.filter_append _ _

theorem IsBlanks.withoutBlanks_eq {t : Text} (h : IsBlanks t) : withoutBlanks t = [] := by
  refine List.filter_eq_nil_iff.mpr fun c hc => ?_
  simp [h c hc]

theorem withoutBlanks_trimEnd (t : Text) : withoutBlanks (trimEnd t) = withoutBlanks t := by
  obtain ⟨blanks, hblanks, ht⟩ := exists_trimEnd_eq t
  rw [← congrArg withoutBlanks ht, withoutBlanks_append, hblanks.withoutBlanks_eq, List.append_nil]

theorem withoutBlanks_trim (t : Text) : withoutBlanks (trim t) = withoutBlanks t := by
  obtain ⟨blanks, hblanks, ht⟩ := exists_trimStart_eq t
  rw [trim, withoutBlanks_trimEnd, ← congrArg withoutBlanks ht, withoutBlanks_append, hblanks.withoutBlanks_eq,
    List.nil_append]

end Text
end SchemaDiagram
