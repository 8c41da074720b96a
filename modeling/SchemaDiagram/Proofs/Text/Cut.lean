import SchemaDiagram.Text.Basic

/-! # Cutting a text

A text is cut at bytes into the parts it was put together from, and at line feeds into lines.
-/
namespace SchemaDiagram
namespace Text

/-! ## Bytes -/

theorem takeBytes_bytes_append (m after : Text) : takeBytes m.bytes (m ++ after) = m := by
  induction m with
  | nil => cases after <;> simp [takeBytes]
  | cons c m ih =>
      have hpos := c.utf8Size_pos
      rw [bytes_cons, List.cons_append, takeBytes, if_neg (by omega), Nat.add_sub_cancel_left, ih]

theorem dropBytes_bytes_append (before t : Text) : dropBytes before.bytes (before ++ t) = t := by
  induction before with
  | nil => cases t <;> simp [dropBytes]
  | cons c before ih =>
      have hpos := c.utf8Size_pos
      rw [bytes_cons, List.cons_append, dropBytes, if_neg (by omega), Nat.add_sub_cancel_left, ih]

theorem slice_append (before m after : Text) :
    slice (before ++ (m ++ after)) before.bytes (before.bytes + m.bytes) = m := by
  rw [slice, dropBytes_bytes_append, Nat.add_sub_cancel_left, takeBytes_bytes_append]

/-! ## Lines -/

theorem lines_ne_nil (t : Text) : t.lines ≠ [] := by
  cases t with
  | nil => exact List.cons_ne_nil _ _
  | cons c rest =>
      rw [lines]
      split
      · exact List.cons_ne_nil _ _
      · split <;> exact List.cons_ne_nil _ _

/-- What stands behind the last line feed. -/
def lastLine (t : Text) : Text := t.lines.getLast t.lines_ne_nil

theorem exists_lines_eq (t : Text) : ∃ before, t.lines = before ++ [t.lastLine] :=
  ⟨_, (List.dropLast_concat_getLast t.lines_ne_nil).symm⟩

theorem lines_append {p q : Text} {before after : List Text} {a b : Text} (hp : p.lines = before ++ [a])
    (hq : q.lines = b :: after) : (p ++ q).lines = before ++ (a ++ b) :: after := by
  induction p generalizing before a with
  | nil =>
      obtain ⟨rfl, rfl⟩ : before = [] ∧ a = [] := by
        cases before with
        | nil => simpa [lines] using hp.symm
        | cons x before => simp [lines] at hp
      exact hq
  | cons c p ih =>
      rw [lines] at hp
      rw [List.cons_append, lines]
      split
      · next hc =>
          rw [if_pos hc] at hp
          cases before with
          | nil => exact absurd (List.cons.inj hp).2 (lines_ne_nil p)
          | cons x before =>
              obtain ⟨rfl, hp'⟩ := List.cons.inj hp
              rw [ih hp']
              rfl
      · next hc =>
          rw [if_neg hc] at hp
          split at hp
          · next hnil => exact absurd hnil (lines_ne_nil p)
          · next line more hlines =>
              cases before with
              | nil =>
                  obtain ⟨rfl, rfl⟩ := List.cons.inj hp
                  have hp' : lines p = [] ++ [line] := hlines
                  rw [ih hp']
                  rfl
              | cons x before =>
                  obtain ⟨rfl, rfl⟩ := List.cons.inj hp
                  have hp' : lines p = (line :: before) ++ [a] := hlines
                  rw [ih hp']
                  rfl

theorem lines_append_feed (p q : Text) : (p ++ '\n' :: q).lines = p.lines ++ q.lines := by
  obtain ⟨before, hp⟩ := p.exists_lines_eq
  have hq : lines ('\n' :: q) = [] :: q.lines := if_pos rfl
  rw [lines_append hp hq, List.append_nil, hp, List.append_assoc, List.singleton_append]

theorem lines_of_not_mem {line : Text} (h : '\n' ∉ line) : line.lines = [line] := by
  induction line with
  | nil => rfl
  | cons c rest ih =>
      rw [List.mem_cons, not_or] at h
      rw [lines, if_neg (Ne.symm h.1), ih h.2]

theorem lines_joinWith {ls : List Text} (hne : ls ≠ []) (h : ∀ line ∈ ls, '\n' ∉ line) :
    (joinWith '\n' ls).lines = ls := by
  induction ls with
  | nil => exact absurd rfl hne
  | cons line more ih =>
      have hline := lines_of_not_mem (h line List.mem_cons_self)
      cases more with
      | nil => exact hline
      | cons next more =>
          have hjoin : joinWith '\n' (line :: next :: more) = line ++ '\n' :: joinWith '\n' (next :: more) := rfl
          rw [hjoin, lines_append_feed, hline, ih (List.cons_ne_nil _ _) fun l hl => h l (List.mem_cons_of_mem _ hl)]
          rfl

theorem mem_of_mem_lines {t line : Text} (h : line ∈ t.lines) {c : Char} (hc : c ∈ line) : c ∈ t ∧ c ≠ '\n' := by
  induction t generalizing line with
  | nil =>
      obtain rfl := List.mem_singleton.mp h
      cases hc
  | cons d rest ih =>
      rw [lines] at h
      split at h
      · rcases List.mem_cons.mp h with rfl | h
        · cases hc
        · exact ⟨List.mem_cons_of_mem d (ih h hc).1, (ih h hc).2⟩
      · next hd =>
          split at h
          · next hnil => exact absurd hnil (lines_ne_nil rest)
          · next first more hlines =>
              rw [hlines] at ih
              rcases List.mem_cons.mp h with rfl | h
              · rcases List.mem_cons.mp hc with rfl | hc
                · exact ⟨List.mem_cons_self, hd⟩
                · have hrest := ih List.mem_cons_self hc
                  exact ⟨List.mem_cons_of_mem d hrest.1, hrest.2⟩
              · have hrest := ih (List.mem_cons_of_mem first h) hc
                exact ⟨List.mem_cons_of_mem d hrest.1, hrest.2⟩

/-- A character of a line has a text in front of it and one behind it. -/
theorem exists_cut_of_lines {t a b : Text} {before after : List Text} {c : Char}
    (h : t.lines = before ++ (a ++ c :: b) :: after) :
    ∃ pre post : Text, t = pre ++ c :: post ∧ pre.lines = before ++ [a] ∧ post.lines = b :: after := by
  induction t generalizing before a with
  | nil =>
      cases before with
      | nil => cases a <;> cases h
      | cons line before => cases before <;> cases h
  | cons d t ih =>
      rw [lines] at h
      split at h
      · next hd =>
          cases before with
          | nil => cases a <;> cases h
          | cons line before =>
              obtain ⟨rfl, hlines⟩ := List.cons.inj h
              obtain ⟨pre, post, rfl, hpre, hpost⟩ := ih hlines
              exact ⟨d :: pre, post, rfl, by rw [lines, if_pos hd, hpre]; rfl, hpost⟩
      · next hd =>
          split at h
          · next hnil => exact absurd hnil (lines_ne_nil t)
          · next line more hlines =>
              have hcons : ∀ {pre : Text} {first rest}, pre.lines = first :: rest →
                  lines (d :: pre) = (d :: first) :: rest := by
                intro pre first rest hpre
                rw [lines, if_neg hd, hpre]
              cases before with
              | cons first before =>
                  obtain ⟨rfl, rfl⟩ := List.cons.inj h
                  have hmore : lines t = (line :: before) ++ (a ++ c :: b) :: after := hlines
                  obtain ⟨pre, post, rfl, hpre, hpost⟩ := ih hmore
                  exact ⟨d :: pre, post, rfl, hcons hpre, hpost⟩
              | nil =>
                  obtain ⟨hline, rfl⟩ := List.cons.inj h
                  cases a with
                  | nil =>
                      obtain ⟨rfl, rfl⟩ := List.cons.inj hline
                      exact ⟨[], t, rfl, rfl, hlines⟩
                  | cons d' a =>
                      obtain ⟨rfl, rfl⟩ := List.cons.inj hline
                      have hfirst : lines t = [] ++ (a ++ c :: b) :: more := hlines
                      obtain ⟨pre, post, rfl, hpre, hpost⟩ := ih hfirst
                      exact ⟨d :: pre, post, rfl, hcons hpre, hpost⟩

end Text
end SchemaDiagram
