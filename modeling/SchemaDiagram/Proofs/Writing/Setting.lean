import SchemaDiagram.Grammar.Setting
import SchemaDiagram.Proofs.Text.Cut
import SchemaDiagram.Proofs.Writing.Segment

/-! # Written settings

A list of settings is written between brackets with a comma and a space between its items. The list that
is read has the items that were written, each with its own text.
-/
namespace SchemaDiagram

namespace Segment

/-! ## Items -/

/-- What stands for itself inside a list of settings. -/
def IsPlain : Segment → Prop
  | openBracket | closeBracket | comma => False
  | _ => True

structure IsItem (ps : List Segment) : Prop extends HasEnds ps where
  plain : ∀ p ∈ ps, p.IsPlain

/-- A list of settings behind its opening bracket. -/
def items : List (List Segment) → List Segment
  | [] => [closeBracket]
  | [item] => item ++ [closeBracket]
  | item :: more => item ++ comma :: space :: items more

/-- A list of settings with a space in front, if there are any. -/
def bracketed : List (List Segment) → List Segment
  | [] => []
  | list => space :: openBracket :: items list

theorem isSome_token? {p : Segment} (h : p ≠ space) : ∃ token, p.token? = some token := by
  cases p with
  | space => exact absurd rfl h
  | _ => exact ⟨_, rfl⟩

theorem head?_lexemes {ps : List Segment} (h : ∃ p rest, ps = p :: rest ∧ p ≠ space) (start : Nat) :
    ∃ x, (lexemes start ps).head? = some x ∧ x.start = start := by
  obtain ⟨p, rest, rfl, hp⟩ := h
  obtain ⟨token, ht⟩ := isSome_token? hp
  simp [lexemes, ht]

theorem getLast?_lexemes {ps : List Segment} (h : ∃ init p, ps = init ++ [p] ∧ p ≠ space) (start : Nat) :
    ∃ x, (lexemes start ps).getLast? = some x ∧ x.stop = start + (line ps).bytes := by
  obtain ⟨init, p, rfl, hp⟩ := h
  obtain ⟨token, ht⟩ := isSome_token? hp
  rw [lexemes_append]
  simp [lexemes, ht, Nat.add_assoc]

theorem ofItem?_lexemes {ps : List Segment} (h : IsItem ps) (before after : Text) :
    Setting.ofItem? (before ++ (line ps ++ after)) (lexemes before.bytes ps) =
      some ⟨line ps, before.bytes, before.bytes + (line ps).bytes⟩ := by
  obtain ⟨x, hx, hstart⟩ := head?_lexemes h.first before.bytes
  obtain ⟨y, hy, hstop⟩ := getLast?_lexemes h.last before.bytes
  simp only [Setting.ofItem?, hx, hy, hstart, hstop, Text.slice_append]

theorem splitItems_append {item : List Segment} (h : ∀ p ∈ item, p.IsPlain) (start : Nat)
    {rest : List Lexeme} {first : List Lexeme} {more : List (List Lexeme)} {after : Option (List Lexeme)}
    (hrest : splitItems 0 rest = (first :: more, after)) :
    splitItems 0 (lexemes start item ++ rest) = ((lexemes start item ++ first) :: more, after) := by
  induction item generalizing start with
  | nil => exact hrest
  | cons p ps ih =>
      have hp := h p List.mem_cons_self
      have ih := ih (fun q hq => h q (List.mem_cons_of_mem p hq)) (start + p.text.bytes)
      cases p with
      | space => exact ih
      | openBracket => exact hp.elim
      | closeBracket => exact hp.elim
      | comma => exact hp.elim
      | _ => simp [lexemes, token?, splitItems, ih]

theorem splitItems_items {list : List (List Segment)} (h : ∀ item ∈ list, IsItem item) (before : Text) :
    ∃ first more, splitItems 0 (lexemes before.bytes (items list)) = (first :: more, some []) ∧
      ((first :: more).filterMap (Setting.ofItem? (before ++ line (items list)))).map Setting.text = list.map line := by
  induction list using items.induct generalizing before with
  | case1 => exact ⟨[], [], rfl, rfl⟩
  | case2 item =>
      have hitem := h item List.mem_cons_self
      refine ⟨lexemes before.bytes item, [], ?_, ?_⟩
      · have hlast : ∀ start, splitItems 0 (lexemes start [closeBracket]) = ([] :: [], some []) := fun _ => rfl
        rw [items, lexemes_append, splitItems_append hitem.plain _ (hlast _), List.append_nil]
      · rw [items, line_append, List.filterMap_cons, ofItem?_lexemes hitem]
        rfl
  | case3 item more hne ih =>
      have hitem := h item List.mem_cons_self
      obtain ⟨first, rest, hsplit, htexts⟩ := ih (fun i hi => h i (List.mem_cons_of_mem item hi))
        (before ++ (line item ++ [',', ' ']))
      have hstart : before.bytes + (line item).bytes + Text.bytes [','] + Text.bytes [' '] =
          (before ++ (line item ++ [',', ' '])).bytes := by
        simp only [Text.bytes_append, Text.bytes_cons, Text.bytes_nil]
        omega
      have hitems : items (item :: more) = item ++ comma :: space :: items more := by
        rw [items]
        exact hne
      have hsource : before ++ line (items (item :: more)) =
          before ++ (line item ++ [',', ' ']) ++ line (items more) := by
        rw [hitems]
        simp [text]
      refine ⟨lexemes before.bytes item, first :: rest, ?_, ?_⟩
      · have hcomma : splitItems 0 (lexemes (before.bytes + (line item).bytes) (comma :: space :: items more)) =
            ([] :: first :: rest, some []) := by
          simp only [lexemes, token?, text, hstart, splitItems, hsplit]
        rw [hitems, lexemes_append, splitItems_append hitem.plain _ hcomma, List.append_nil]
      · have hfirst := ofItem?_lexemes hitem before ([',', ' '] ++ line (items more))
        have hwhole :
            before ++ (line item ++ ([',', ' '] ++ line (items more))) = before ++ line (items (item :: more)) := by
          rw [hsource]
          simp
        rw [hwhole] at hfirst
        rw [← hsource] at htexts
        rw [List.filterMap_cons, hfirst, List.map_cons, List.map_cons, htexts]

theorem read_items {list : List (List Segment)} (h : ∀ item ∈ list, IsItem item) (before : Text) :
    ∃ found, SettingList.read (before ++ line (items list)) (lexemes before.bytes (items list)) = ⟨found, [], true⟩ ∧
      found.map Setting.text = list.map line := by
  obtain ⟨first, more, hsplit, htexts⟩ := splitItems_items h before
  refine ⟨_, ?_, htexts⟩
  simp only [SettingList.read, hsplit, Option.getD_some, Option.isSome_some]

/-! ## Keys and values -/

def phrase : List Text → List Segment
  | [] => []
  | [w] => [word w]
  | w :: more => word w :: space :: phrase more

def keyed (key : String) (value : List Segment) : List Segment := word key.toList :: colon :: space :: value

/-- A word that a setting can have as its key. -/
def IsKey (key : String) : Prop := Text.IsWord key.toList ∧ Text.lower (Text.trim key.toList) = key.toList

instance (key : String) : Decidable (IsKey key) := inferInstanceAs (Decidable (_ ∧ _))

theorem splitAtFirst_append {mark : Char} {before : Text} (h : mark ∉ before) (after : Text) :
    Text.splitAtFirst mark (before ++ mark :: after) = some (before, after) := by
  induction before with
  | nil => simp [Text.splitAtFirst]
  | cons c before ih =>
      rw [List.mem_cons, not_or] at h
      rw [List.cons_append, Text.splitAtFirst, if_neg (Ne.symm h.1), ih h.2]
      rfl

theorem splitAtFirst_keyed {key : String} (hk : IsKey key) (value : List Segment) :
    Text.splitAtFirst ':' (line (keyed key value)) = some (key.toList, ' ' :: line value) := by
  have hcolon : ':' ∉ key.toList := fun hc => not_mem_markChars_of_isWordChar (hk.1.isWordChar hc) (by decide)
  exact splitAtFirst_append hcolon (' ' :: line value)

variable {s : Setting} {key : String} {value : List Segment}

theorem key?_keyed (hk : IsKey key) (hs : s.text = line (keyed key value)) : s.key? = some key.toList := by
  rw [Setting.key?, hs, splitAtFirst_keyed hk, Option.map_some]
  exact congrArg some hk.2

theorem hasKey_keyed (hk : IsKey key) (hs : s.text = line (keyed key value)) (other : String) :
    s.hasKey other = decide (key = other) := by
  rw [Setting.hasKey, key?_keyed hk hs, Bool.eq_iff_iff]
  simp [String.toList_inj]

theorem value?_keyed (hk : IsKey key) (hw : ∀ p ∈ value, p.WellFormed) (hv : HasEnds value)
    (hs : s.text = line (keyed key value)) : s.value? = some (line value) := by
  rw [Setting.value?, hs, splitAtFirst_keyed hk, Option.map_some]
  exact congrArg some (trim_space_line hw hv)

theorem readable_keyed (hk : IsKey key) (hv : Readable value) : Readable (keyed key value) :=
  (readable_singleton (p := word key.toList) hk.1).append
    ((hv.cons (p := space) trivial).cons (p := colon) trivial) (by simp [IsBreak])

theorem string?_keyed (hk : IsKey key) {content : Text} (hs : s.text = line (keyed key [str content])) :
    s.string? = some content := by
  have hread := readable_keyed hk (readable_singleton (p := str content) trivial)
  rw [Setting.string?, hs, tokens_line hread]
  rfl

theorem isItem_keyed (hv : HasEnds value) (hp : ∀ p ∈ value, p.IsPlain) : IsItem (keyed key value) := by
  obtain ⟨init, p, rfl, hne⟩ := hv.last
  refine ⟨⟨⟨_, _, rfl, nofun⟩, ⟨word key.toList :: colon :: space :: init, p, rfl, hne⟩⟩, ?_⟩
  intro q hq
  simp only [keyed, List.mem_cons] at hq
  rcases hq with rfl | rfl | rfl | hq
  · trivial
  · trivial
  · trivial
  · exact hp q hq

/-! ## Lists of settings can be read -/

theorem readable_items {list : List (List Segment)} (h : ∀ item ∈ list, Readable item) : Readable (items list) := by
  induction list using items.induct with
  | case1 => exact readable_singleton (p := closeBracket) trivial
  | case2 item =>
      exact (h item List.mem_cons_self).append (readable_singleton (p := closeBracket) trivial) (by simp [IsBreak])
  | case3 item more hne ih =>
      have hmore := ih fun i hi => h i (List.mem_cons_of_mem item hi)
      have hrest := (hmore.cons (p := space) trivial).cons (p := comma) trivial
      rw [items]
      · exact (h item List.mem_cons_self).append hrest (by simp [IsBreak])
      · exact hne

theorem readable_bracketed {list : List (List Segment)} (h : ∀ item ∈ list, Readable item) :
    Readable (bracketed list) := by
  cases list with
  | nil => exact readable_nil
  | cons item more => exact ((readable_items h).cons (p := openBracket) trivial).cons (p := space) trivial

theorem isBreak_head?_bracketed (list : List (List Segment)) : ∀ q ∈ (bracketed list).head?, q.IsBreak := by
  cases list <;> simp [bracketed, IsBreak]

theorem hasEnds_append_bracketed {ps : List Segment} (h : HasEnds ps) (list : List (List Segment)) :
    HasEnds (ps ++ bracketed list) := by
  obtain ⟨p, rest, rfl, hp⟩ := h.first
  have hitems : ∃ init, items list = init ++ [closeBracket] := by
    induction list using items.induct with
    | case1 => exact ⟨[], rfl⟩
    | case2 item => exact ⟨item, rfl⟩
    | case3 item more hne ih =>
        obtain ⟨init, hinit⟩ := ih
        refine ⟨item ++ comma :: space :: init, ?_⟩
        rw [items]
        · simp [hinit]
        · exact hne
  refine ⟨⟨p, rest ++ bracketed list, rfl, hp⟩, ?_⟩
  cases list with
  | nil => simpa [bracketed] using h.last
  | cons item more =>
      obtain ⟨init, hinit⟩ := hitems
      exact ⟨p :: rest ++ space :: openBracket :: init, closeBracket, by simp [bracketed, hinit], nofun⟩

end Segment
end SchemaDiagram
