import SchemaDiagram.Proofs.Access.Basic
import SchemaDiagram.Proofs.Source.Position
import SchemaDiagram.Proofs.Text.Blank

/-! # Checked reading of lines

A line is read by the indices of its characters. The events of a line are slices of its code, and so its
columns can be counted at every place where an event, or the text in it without blanks, starts or stops.
-/
namespace SchemaDiagram
namespace Access

/-! ## Characters -/

/-- What a character gives, from the two characters behind it: its glyphs, the next state, and how many of the
characters behind it are read with it; none where a comment ends the code. -/
def scanStep (s : ScanState) (c : Char) (next third : Option Char) : Option (List Glyph × ScanState × Nat) :=
  match s with
  | .blockComment =>
    if c = '*' ∧ next = some '/' then some ([.plain ' ', .plain ' '], .code, 1)
    else some ([.plain ' '], .blockComment, 0)
  | .quoted quote =>
    match next with
    | some d =>
      if c = '\\' then some ([.plain '\\', .plain d], .quoted quote, 1)
      else some ([.plain c], if c = quote then .code else .quoted quote, 0)
    | none => some ([.plain c], if c = quote then .code else .quoted quote, 0)
  | .tripleQuoted =>
    if c = '\'' ∧ next = some '\'' ∧ third = some '\'' then
      some ([.plain '\'', .plain '\'', .plain '\''], .code, 2)
    else some ([.plain c], .tripleQuoted, 0)
  | .code =>
    if c = '/' ∧ next = some '/' then none
    else if c = '/' ∧ next = some '*' then some ([.plain ' ', .plain ' '], .blockComment, 1)
    else if c = '\'' ∧ next = some '\'' ∧ third = some '\'' then
      some ([.plain '\'', .plain '\'', .plain '\''], .tripleQuoted, 2)
    else some ([(scanCodeChar c).1], (scanCodeChar c).2, 0)

/-- The code of a line from its character `i` on, and the state at its end. -/
def scanFrom (chars : Text) (s : ScanState) (i : Nat) : Access (List Glyph × ScanState) :=
  if i < chars.length then do
    let c ← index chars i
    match scanStep s c chars[i + 1]? chars[i + 2]? with
    | some (glyphs, next, more) =>
      let (rest, last) ← scanFrom chars next (i + 1 + more)
      return (glyphs ++ rest, last)
    | none => return ([], .code)
  else return ([], s)
termination_by chars.length - i

theorem eq_cons_of_getElem? {t : Text} {c : Char} (h : t[0]? = some c) : t = c :: t.drop 1 := by
  cases t with
  | nil => cases h
  | cons d t => exact congrArg (· :: t) (Option.some.inj h)

theorem eq_cons_cons_of_getElem? {t : Text} {c d : Char} (hc : t[0]? = some c) (hd : t[1]? = some d) :
    t = c :: d :: t.drop 2 := by
  have ht := eq_cons_of_getElem? hc
  have hrest : (t.drop 1)[0]? = some d := by rwa [List.getElem?_drop]
  rw [eq_cons_of_getElem? hrest, List.drop_drop] at ht
  exact ht

theorem scanChars_cons (s : ScanState) (c : Char) (rest : Text) :
    scanChars s (c :: rest) = match scanStep s c rest[0]? rest[1]? with
      | some (glyphs, next, more) =>
        (glyphs ++ (scanChars next (rest.drop more)).1, (scanChars next (rest.drop more)).2)
      | none => ([], .code) := by
  generalize ht : c :: rest = t
  fun_cases scanChars s t with
  | case1 => cases ht
  | case2 _ _ _ hread | case4 _ _ _ _ _ hread | case6 _ _ _ hread | case9 _ _ _ hread | case10 _ _ _ hread =>
      cases ht
      simp [scanStep, hread]
  | case8 =>
      cases ht
      rfl
  | case3 _ _ _ _ _ hread =>
      cases ht
      rename_i hpair
      have hno : ¬(c = '*' ∧ rest[0]? = some '/') := fun h => hpair _ h.1 (eq_cons_of_getElem? h.2)
      simp only [scanStep, if_neg hno, List.drop_zero, hread, List.singleton_append]
  | case5 _ _ _ hescape _ _ hread =>
      cases ht
      cases rest with
      | nil => simp [scanStep, hread]
      | cons d rest =>
          have hno : c ≠ '\\' := fun h => hescape d rest h rfl
          simp [scanStep, hno, hread]
  | case7 _ _ _ _ _ hread =>
      cases ht
      rename_i htriple
      have hno : ¬(c = '\'' ∧ rest[0]? = some '\'' ∧ rest[1]? = some '\'') :=
        fun h => htriple _ h.1 (eq_cons_cons_of_getElem? h.2.1 h.2.2)
      simp only [scanStep, if_neg hno, List.drop_zero, hread, List.singleton_append]
  | case11 =>
      cases ht
      rename_i hchar hread hline hblock htriple
      have hnoLine : ¬(c = '/' ∧ rest[0]? = some '/') := fun h => hline _ h.1 (eq_cons_of_getElem? h.2)
      have hnoBlock : ¬(c = '/' ∧ rest[0]? = some '*') := fun h => hblock _ h.1 (eq_cons_of_getElem? h.2)
      have hnoTriple : ¬(c = '\'' ∧ rest[0]? = some '\'' ∧ rest[1]? = some '\'') :=
        fun h => htriple _ h.1 (eq_cons_cons_of_getElem? h.2.1 h.2.2)
      simp only [scanStep, if_neg hnoLine, if_neg hnoBlock, if_neg hnoTriple, hchar, List.drop_zero, hread,
        List.singleton_append]

theorem scanFrom_eq (chars : Text) (s : ScanState) (i : Nat) :
    scanFrom chars s i = .ok (scanChars s (chars.drop i)) := by
  fun_induction scanFrom chars s i with
  | case1 s i hi ih =>
      have hdrop : chars.drop i = chars[i] :: chars.drop (i + 1) := List.drop_eq_getElem_cons hi
      rw [index_eq (List.getElem?_eq_getElem hi), ok_bind, hdrop, scanChars_cons, List.getElem?_drop,
        List.getElem?_drop]
      rw [Nat.add_zero, Nat.add_assoc]
      split
      · next glyphs next more hstep =>
          rw [hstep, ih next more, ← List.drop_drop]
          rfl
      · next hstep =>
          rw [hstep]
          rfl
  | case2 s i hi =>
      rw [List.drop_eq_nil_of_le (Nat.le_of_not_lt hi)]
      rfl

def readLines : ScanState → Nat → List Text → Access (List Line)
  | _, _, [] => return []
  | s, number, raw :: rest => do
    let (glyphs, last) ← scanFrom (dropReturn raw) s 0
    return ⟨number, s = .tripleQuoted, glyphs⟩ :: (← readLines last.endLine (number + 1) rest)

theorem readLines_eq (s : ScanState) (number : Nat) (raws : List Text) :
    readLines s number raws = .ok (scanLines s number raws) := by
  induction raws generalizing s number with
  | nil => rfl
  | cons raw rest ih =>
      rw [readLines, scanFrom_eq, ok_bind, List.drop_zero, scanLines_cons]
      simp only [ih, ok_bind, pure_eq_ok]

/-! ## Columns -/

/-- The column of a byte, at most the one behind the end. -/
def columnOf (l : Line) (offset : Nat) : Access Nat := do
  return (← upTo l.code (min offset l.code.bytes)).length + 1

theorem columnOf_eq {l : Line} {offset : Nat} (h : l.code.IsBoundary offset) :
    columnOf l offset = .ok (l.column offset) := by
  rw [columnOf, Nat.min_eq_left h.le, upTo_eq h]
  rfl

def endColumnOf (l : Line) : Access Nat := do
  return max 2 (← columnOf l l.code.trimEnd.bytes)

theorem endColumnOf_eq (l : Line) : endColumnOf l = .ok l.endColumn := by
  obtain ⟨blanks, -, hcode⟩ := Text.exists_trimEnd_eq l.code
  rw [endColumnOf, columnOf_eq ⟨l.code.trimEnd, blanks, hcode.symm, rfl⟩]
  rfl

/-! ## Events -/

/-- The characters of a line that an event stands for. -/
def contentOf (l : Line) (e : Event) : Access Text := slice l.code e.start e.stop

theorem exists_around_of_mem_ofGlyphs {start : Nat} {gs : List Glyph} {e : Event} (h : e ∈ Event.ofGlyphs start gs) :
    ∃ before after : Text, gs.map Glyph.char = before ++ (e.content ++ after) ∧ e.start = start + before.bytes := by
  induction gs generalizing start with
  | nil => cases h
  | cons g gs ih =>
      have hrest : e ∈ Event.ofGlyphs (start + g.char.utf8Size) gs → ∃ before after : Text,
          (g :: gs).map Glyph.char = before ++ (e.content ++ after) ∧ e.start = start + before.bytes := by
        intro hmem
        obtain ⟨before, after, hcode, hstart⟩ := ih hmem
        exact ⟨g.char :: before, after, congrArg (g.char :: ·) hcode, hstart.trans (Nat.add_assoc _ _ _)⟩
      cases g with
      | openBrace =>
          rcases List.mem_cons.mp h with rfl | h
          · exact ⟨[], _, rfl, rfl⟩
          · exact hrest h
      | closeBrace =>
          rcases List.mem_cons.mp h with rfl | h
          · exact ⟨[], _, rfl, rfl⟩
          · exact hrest h
      | plain c =>
          obtain ⟨content, more, heq, hmore⟩ := Event.ofGlyphs_plain_cases start c gs
          have hcode := Event.flatMap_content_ofGlyphs start (.plain c :: gs)
          rw [heq] at h hcode
          rcases List.mem_cons.mp h with rfl | h
          · exact ⟨[], more.flatMap Event.content, hcode.symm, rfl⟩
          · exact hrest (hmore e h)

theorem exists_around_of_mem_events {l : Line} {e : Event} (h : e ∈ l.events) :
    ∃ before after : Text, l.code = before ++ (e.content ++ after) ∧ e.start = before.bytes := by
  obtain ⟨before, after, hcode, hstart⟩ := exists_around_of_mem_ofGlyphs h
  exact ⟨before, after, hcode, hstart.trans (Nat.zero_add _)⟩

theorem contentOf_eq {l : Line} {e : Event} (h : e ∈ l.events) : contentOf l e = .ok e.content := by
  obtain ⟨before, after, hcode, hstart⟩ := exists_around_of_mem_events h
  rw [contentOf, Event.stop, hcode, hstart, slice_append]

end Access
end SchemaDiagram
