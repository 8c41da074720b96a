import SchemaDiagram.Grammar.Reference
import SchemaDiagram.Proofs.Access.Grammar
import SchemaDiagram.Proofs.Text.Cut

/-! # Shifted tokens

A text that stands behind another one has the same tokens, further to the right. The readers of names, settings
and references look at the distances of tokens only, so they read the same there.
-/
namespace SchemaDiagram

/-! ## Bytes behind a text -/

namespace Text

theorem dropBytes_append (before t : Text) (n : Nat) :
    dropBytes (before.bytes + n) (before ++ t) = dropBytes n t := by
  induction before with
  | nil => rw [bytes_nil, Nat.zero_add, List.nil_append]
  | cons c before ih =>
      have hpos := c.utf8Size_pos
      have hrest : c.utf8Size + bytes before + n - c.utf8Size = bytes before + n := by omega
      rw [bytes_cons, List.cons_append, dropBytes, if_neg (by omega), hrest, ih]

theorem slice_append_left (before t : Text) (start stop : Nat) :
    slice (before ++ t) (before.bytes + start) (before.bytes + stop) = slice t start stop := by
  rw [slice, slice, dropBytes_append, Nat.add_sub_add_left]

end Text

/-! ## Tokens -/

namespace Lexeme

/-- The token `n` bytes further to the right. -/
def shift (n : Nat) (x : Lexeme) : Lexeme := ⟨x.token, n + x.start, n + x.stop⟩

variable (n : Nat) (x : Lexeme)

@[simp] theorem token_shift : (x.shift n).token = x.token := rfl

@[simp] theorem start_shift : (x.shift n).start = n + x.start := rfl

@[simp] theorem stop_shift : (x.shift n).stop = n + x.stop := rfl

@[simp] theorem name?_shift : (x.shift n).name? = x.name? := rfl

end Lexeme

theorem tokensFrom_shift (n start : Nat) (t : Text) :
    tokensFrom (n + start) t = (tokensFrom start t).map (Lexeme.shift n) := by
  fun_induction tokensFrom start t with
  | case1 start => simp [tokensFrom]
  | case2 start c rest hblank ih => rw [tokensFrom_blank _ hblank, Nat.add_assoc, ih]
  | case3 start c rest hblank read stop ih =>
      rw [tokensFrom, if_neg hblank, List.map_cons, ← ih, Lexeme.shift]
      simp only [stop, read, Nat.add_assoc]

/-! ## Names -/

def Name.shift (n : Nat) (name : Name) : Name := { name with start := n + name.start, stop := n + name.stop }

def FieldName.shift (n : Nat) (name : FieldName) : FieldName :=
  { name with start := n + name.start, stop := n + name.stop }

theorem Name.readParts_shift (n stop : Nat) (xs : List Lexeme) :
    readParts (n + stop) (xs.map (Lexeme.shift n)) =
      ((readParts stop xs).1, n + (readParts stop xs).2.1, (readParts stop xs).2.2.map (Lexeme.shift n)) := by
  fun_induction readParts stop xs with
  | case1 stop x y rest hdot part hname parts last after hread ih =>
      rw [hread] at ih
      simp [readParts, hdot, hname, ih]
  | case2 stop x y rest hdot hname => simp [readParts, hdot, hname]
  | case3 stop x y rest hdot => simp [readParts, hdot]
  | case4 stop xs hshort =>
      match xs, hshort with
      | [], _ | [_], _ => rfl
      | x :: y :: rest, hshort => exact absurd rfl (hshort x y rest)

theorem Name.read?_shift (n : Nat) (xs : List Lexeme) :
    read? (xs.map (Lexeme.shift n)) =
      (read? xs).map fun (name, after) => (name.shift n, after.map (Lexeme.shift n)) := by
  cases xs with
  | nil => rfl
  | cons x rest =>
      simp only [List.map_cons, read?, Lexeme.name?_shift, Lexeme.stop_shift, Lexeme.start_shift, readParts_shift,
        Option.map_map]
      rfl

theorem FieldName.read?_shift (n : Nat) (xs : List Lexeme) :
    read? (xs.map (Lexeme.shift n)) =
      (read? xs).map fun (name, after) => (name.shift n, after.map (Lexeme.shift n)) := by
  rw [read?, read?, Name.read?_shift]
  cases Name.read? xs with
  | none => rfl
  | some found =>
      obtain ⟨name, after⟩ := found
      simp only [Option.map_some, Name.shift]
      split
      · rfl
      · rw [Option.map_map]
        rfl

/-! ## Settings -/

def Setting.shift (n : Nat) (s : Setting) : Setting := { s with start := n + s.start, stop := n + s.stop }

theorem splitItems_shift (n depth : Nat) (xs : List Lexeme) :
    splitItems depth (xs.map (Lexeme.shift n)) =
      ((splitItems depth xs).1.map (·.map (Lexeme.shift n)),
        (splitItems depth xs).2.map (·.map (Lexeme.shift n))) := by
  induction xs generalizing depth with
  | nil => rfl
  | cons x rest ih =>
      rw [List.map_cons, splitItems_cons, splitItems_cons, Lexeme.token_shift]
      cases ItemStep.of x.token depth with
      | inside depth =>
          obtain ⟨item, items, after, hitems⟩ := exists_splitItems depth rest
          simp only [ih, hitems, List.map_cons]
      | nextItem => simp only [ih, List.map_cons, List.map_nil]
      | behindList => rfl

theorem Setting.ofItem?_shift (before t : Text) (item : List Lexeme) :
    ofItem? (before ++ t) (item.map (Lexeme.shift before.bytes)) =
      (ofItem? t item).map (Setting.shift before.bytes) := by
  rw [ofItem?, ofItem?, List.head?_map, List.getLast?_map]
  cases item.head? with
  | none => rfl
  | some first =>
      cases item.getLast? with
      | none => rfl
      | some last =>
          simp only [Option.map_some, Lexeme.start_shift, Lexeme.stop_shift, Text.slice_append_left]
          rfl

theorem SettingList.read_shift (before t : Text) (xs : List Lexeme) :
    read (before ++ t) (xs.map (Lexeme.shift before.bytes)) =
      { read t xs with
        settings := (read t xs).settings.map (Setting.shift before.bytes)
        rest := (read t xs).rest.map (Lexeme.shift before.bytes) } := by
  rw [read, read, splitItems_shift]
  simp only [List.filterMap_map, List.map_filterMap, Function.comp_def, Setting.ofItem?_shift, Option.isSome_map]
  cases (splitItems 0 xs).2 <;> rfl

/-! ## References -/

def RefBody.shift (n : Nat) (r : RefBody) : RefBody :=
  { r with source := r.source.shift n, target := r.target.shift n, settings := r.settings.map (Setting.shift n) }

theorem RefBody.ofTokens?_shift (before t : Text) (xs : List Lexeme) :
    ofTokens? (before ++ t) (xs.map (Lexeme.shift before.bytes)) =
      (ofTokens? t xs).map (RefBody.shift before.bytes) := by
  rw [ofTokens?, ofTokens?, FieldName.read?_shift]
  rcases FieldName.read? xs with _ | ⟨source, _ | ⟨⟨token, start, stop⟩, rest⟩⟩
  · rfl
  · rfl
  · cases token with
    | op kind =>
        simp only [Option.map_some, List.map_cons, Lexeme.shift, FieldName.read?_shift]
        rcases FieldName.read? rest with _ | ⟨target, _ | ⟨⟨token, start, stop⟩, rest⟩⟩
        · rfl
        · rfl
        · cases token with
          | openBracket =>
              simp only [Option.map_some, List.map_cons, Lexeme.shift, SettingList.read_shift, List.isEmpty_map]
              split <;> rfl
          | _ => rfl
    | _ => rfl

end SchemaDiagram
