import SchemaDiagram.Proofs.Failure
import SchemaDiagram.Proofs.Text.Cut

/-! # Checked access

The definitions of this library take what is out of range for empty or leave it alone. A reader that works
with bytes and indices may not: a slice has to be in order, in range and between characters, an index has to
be one of the list, and nothing is taken away from a smaller number. Here are these accesses with their checks.
-/
namespace SchemaDiagram

/-! ## Boundaries -/

namespace Text

theorem eq_nil_of_bytes_eq_zero {t : Text} (h : t.bytes = 0) : t = [] := by
  cases t with
  | nil => rfl
  | cons c rest =>
      have hpos := c.utf8Size_pos
      rw [bytes_cons] at h
      omega

theorem isBoundary_zero (t : Text) : t.IsBoundary 0 := ⟨[], t, rfl, rfl⟩

theorem isBoundary_bytes (t : Text) : t.IsBoundary t.bytes := ⟨t, [], (List.append_nil t).symm, rfl⟩

theorem isBoundary_append (before after : Text) : (before ++ after).IsBoundary before.bytes := ⟨before, after, rfl, rfl⟩

theorem IsBoundary.le {t : Text} {n : Nat} (h : t.IsBoundary n) : n ≤ t.bytes := by
  obtain ⟨before, after, rfl, rfl⟩ := h
  rw [bytes_append]
  exact Nat.le_add_right _ _

/-- A boundary of a text is one of its first part, unless it is behind that part. -/
theorem IsBoundary.min_bytes {before after : Text} {n : Nat} (h : (before ++ after).IsBoundary n) :
    before.IsBoundary (min n before.bytes) := by
  obtain ⟨front, back, ht, rfl⟩ := h
  rcases List.append_eq_append_iff.mp ht with ⟨part, rfl, rfl⟩ | ⟨part, rfl, rfl⟩
  · rw [bytes_append, Nat.min_eq_right (Nat.le_add_right _ _)]
    exact isBoundary_bytes before
  · rw [bytes_append, Nat.min_eq_left (Nat.le_add_right _ _)]
    exact isBoundary_append front part

/-- Bytes behind the end are none. -/
theorem takeBytes_min_bytes (t : Text) (n : Nat) : t.takeBytes (min n t.bytes) = t.takeBytes n := by
  induction t generalizing n with
  | nil => simp [takeBytes]
  | cons c rest ih =>
      have hpos := c.utf8Size_pos
      by_cases hn : n = 0
      · simp [hn]
      · have hmin : min n (bytes (c :: rest)) ≠ 0 := by
          rw [bytes_cons]
          omega
        have hrest : min n (bytes (c :: rest)) - c.utf8Size = min (n - c.utf8Size) (bytes rest) := by
          rw [bytes_cons]
          omega
        rw [takeBytes, takeBytes, if_neg hmin, if_neg hn, hrest, ih]

end Text

/-! ## Faults -/

/-- An access that is not possible. -/
inductive Fault
  | slice
  | index
  | difference
  deriving DecidableEq, Repr

abbrev Access (α : Type) := Except Fault α

namespace Access

variable {α β : Type}

@[simp] theorem ok_bind (a : α) (f : α → Access β) : (Except.ok a >>= f) = f a := rfl

@[simp] theorem pure_eq_ok (a : α) : (pure a : Access α) = .ok a := rfl

/-! ## Numbers and lists -/

def difference (a b : Nat) : Access Nat := if b ≤ a then .ok (a - b) else .error .difference

theorem difference_eq {a b : Nat} (h : b ≤ a) : difference a b = .ok (a - b) := if_pos h

def index (as : List α) (i : Nat) : Access α :=
  match as[i]? with
  | some a => .ok a
  | none => .error .index

theorem index_eq {as : List α} {i : Nat} {a : α} (h : as[i]? = some a) : index as i = .ok a := by
  rw [index, h]

/-- Changes the item at an index. -/
def modify (as : List α) (i : Nat) (f : α → α) : Access (List α) :=
  if i < as.length then .ok (as.modify i f) else .error .index

theorem modify_eq {as : List α} {i : Nat} (h : i < as.length) (f : α → α) : modify as i f = .ok (as.modify i f) :=
  if_pos h

/-- The items from index `i` on. -/
def itemsFrom (as : List α) (i : Nat) : Access (List α) :=
  if i ≤ as.length then .ok (as.drop i) else .error .slice

theorem itemsFrom_eq {as : List α} {i : Nat} (h : i ≤ as.length) : itemsFrom as i = .ok (as.drop i) := if_pos h

/-- The result for every item, in order. -/
def each (f : α → Access β) : List α → Access (List β)
  | [] => .ok []
  | a :: rest => do return (← f a) :: (← each f rest)

theorem each_eq {f : α → Access β} {g : α → β} {as : List α} (h : ∀ a ∈ as, f a = .ok (g a)) :
    each f as = .ok (as.map g) := by
  induction as with
  | nil => rfl
  | cons a rest ih =>
      rw [each, h a List.mem_cons_self, ih fun b hb => h b (List.mem_cons_of_mem a hb)]
      rfl

/-- What is true at first and kept by every step is true at the end, and no step fails. -/
theorem foldlM_eq {f : β → α → Access β} {g : β → α → β} {P : β → Prop} {as : List α} {b : β}
    (h : ∀ b, ∀ a ∈ as, P b → f b a = .ok (g b a) ∧ P (g b a)) (hb : P b) :
    as.foldlM f b = .ok (as.foldl g b) ∧ P (as.foldl g b) := by
  induction as generalizing b with
  | nil => exact ⟨rfl, hb⟩
  | cons a rest ih =>
      obtain ⟨hfirst, hkept⟩ := h b a List.mem_cons_self hb
      rw [List.foldlM_cons, hfirst, ok_bind]
      exact ih (fun b a ha => h b a (List.mem_cons_of_mem _ ha)) hkept

/-- The results that are there, in order. -/
def eachSome (f : α → Access (Option β)) (as : List α) : Access (List β) := do
  return (← each f as).filterMap id

theorem eachSome_eq {f : α → Access (Option β)} {g : α → Option β} {as : List α} (h : ∀ a ∈ as, f a = .ok (g a)) :
    eachSome f as = .ok (as.filterMap g) := by
  rw [eachSome, each_eq h, ok_bind, List.filterMap_map]
  rfl

/-! ## Slices -/

/-- The parts in front of byte `n` and behind it. -/
def splitAtByte : Nat → Text → Access (Text × Text)
  | 0, t => .ok ([], t)
  | _ + 1, [] => .error .slice
  | n + 1, c :: rest =>
    if c.utf8Size ≤ n + 1 then do
      let (before, after) ← splitAtByte (n + 1 - c.utf8Size) rest
      return (c :: before, after)
    else .error .slice

theorem splitAtByte_append (before after : Text) :
    splitAtByte (Text.bytes before) (before ++ after) = .ok (before, after) := by
  induction before with
  | nil => cases after <;> rfl
  | cons c before ih =>
      obtain ⟨n, hn⟩ := Nat.exists_eq_add_one.mpr c.utf8Size_pos
      have hbytes : Text.bytes (c :: before) = n + Text.bytes before + 1 := by
        rw [Text.bytes_cons, hn]
        omega
      have hrest : n + Text.bytes before + 1 - c.utf8Size = Text.bytes before := by omega
      rw [hbytes, List.cons_append, splitAtByte, if_pos (by omega), hrest, ih]
      rfl

theorem splitAtByte_eq_ok_iff {n : Nat} {t before after : Text} :
    splitAtByte n t = .ok (before, after) ↔ t = before ++ after ∧ before.bytes = n := by
  refine ⟨fun h => ?_, fun ⟨ht, hn⟩ => ht ▸ hn ▸ splitAtByte_append before after⟩
  fun_induction splitAtByte n t generalizing before after with
  | case1 t =>
      cases h
      exact ⟨rfl, rfl⟩
  | case2 => cases h
  | case3 n c rest hc ih =>
      obtain ⟨⟨front, back⟩, hsplit, heq⟩ := map_eq_ok_iff.mp h
      cases heq
      obtain ⟨rfl, hbytes⟩ := ih hsplit
      refine ⟨rfl, ?_⟩
      rw [Text.bytes_cons, hbytes]
      omega
  | case4 => cases h

/-- The bytes from `start` up to `stop`. -/
def slice (t : Text) (start stop : Nat) : Access Text := do
  let (_, rest) ← splitAtByte start t
  let (part, _) ← splitAtByte (← difference stop start) rest
  return part

theorem slice_append (before part after : Text) :
    slice (before ++ (part ++ after)) before.bytes (before.bytes + part.bytes) = .ok part := by
  rw [slice, splitAtByte_append, ok_bind]
  simp only [difference_eq (Nat.le_add_right before.bytes part.bytes), ok_bind, Nat.add_sub_cancel_left,
    splitAtByte_append, pure_eq_ok]

theorem slice_eq_ok_iff {t part : Text} {start stop : Nat} :
    slice t start stop = .ok part ↔
      ∃ before after, t = before ++ (part ++ after) ∧ before.bytes = start ∧ before.bytes + part.bytes = stop := by
  refine ⟨fun h => ?_, fun ⟨before, after, ht, hstart, hstop⟩ => ht ▸ hstart ▸ hstop ▸ slice_append before part after⟩
  obtain ⟨⟨before, rest⟩, hfirst, h⟩ := bind_eq_ok_iff.mp h
  obtain ⟨length, hlength, h⟩ := bind_eq_ok_iff.mp h
  obtain ⟨⟨middle, after⟩, hsecond, rfl⟩ := map_eq_ok_iff.mp h
  obtain ⟨rfl, rfl⟩ := splitAtByte_eq_ok_iff.mp hfirst
  obtain ⟨rfl, rfl⟩ := splitAtByte_eq_ok_iff.mp hsecond
  refine ⟨before, after, rfl, rfl, ?_⟩
  change _ + middle.bytes = stop
  rw [difference] at hlength
  split at hlength
  · next hle =>
      have hlength : stop - before.bytes = middle.bytes := Except.ok.inj hlength
      omega
  · cases hlength

/-- A slice is possible if and only if its ends are in order, in range and between characters. -/
theorem exists_slice_iff {t : Text} {start stop : Nat} :
    (∃ part, slice t start stop = .ok part) ↔ start ≤ stop ∧ t.IsBoundary start ∧ t.IsBoundary stop := by
  constructor
  · rintro ⟨part, h⟩
    obtain ⟨before, after, rfl, rfl, rfl⟩ := slice_eq_ok_iff.mp h
    exact ⟨Nat.le_add_right _ _, ⟨before, _, rfl, rfl⟩, before ++ part, after, by simp, by simp⟩
  · rintro ⟨hle, ⟨before, rest, rfl, rfl⟩, front, after, ht, rfl⟩
    rcases List.append_eq_append_iff.mp ht with ⟨part, rfl, rfl⟩ | ⟨extra, rfl, rfl⟩
    · exact ⟨part, slice_eq_ok_iff.mpr ⟨before, after, rfl, rfl, (Text.bytes_append before part).symm⟩⟩
    · have hextra : extra = [] := Text.eq_nil_of_bytes_eq_zero (by rw [Text.bytes_append] at hle; omega)
      subst hextra
      exact ⟨[], slice_eq_ok_iff.mpr ⟨front, rest, by simp, by simp, rfl⟩⟩

theorem slice_eq {t : Text} {start stop : Nat} (hle : start ≤ stop) (hstart : t.IsBoundary start)
    (hstop : t.IsBoundary stop) : slice t start stop = .ok (t.slice start stop) := by
  obtain ⟨part, h⟩ := exists_slice_iff.mpr ⟨hle, hstart, hstop⟩
  obtain ⟨before, after, rfl, rfl, rfl⟩ := slice_eq_ok_iff.mp h
  rw [h, Text.slice_append]

/-- What stands in front of a byte. -/
def upTo (t : Text) (stop : Nat) : Access Text := slice t 0 stop

theorem upTo_append (before after : Text) : upTo (before ++ after) before.bytes = .ok before := by
  rw [upTo, slice_eq_ok_iff]
  exact ⟨[], after, rfl, rfl, Nat.zero_add _⟩

theorem upTo_eq {t : Text} {stop : Nat} (h : t.IsBoundary stop) : upTo t stop = .ok (t.takeBytes stop) := by
  obtain ⟨before, after, rfl, rfl⟩ := h
  rw [upTo_append, Text.takeBytes_bytes_append]

theorem upTo_takeWhile (p : Char → Bool) (t : Text) : upTo t (Text.bytes (t.takeWhile p)) = .ok (t.takeWhile p) := by
  have h := upTo_append (t.takeWhile p) (t.dropWhile p)
  rwa [List.takeWhile_append_dropWhile] at h

/-- What stands from a byte on. -/
def fromByte (t : Text) (start : Nat) : Access Text := slice t start t.bytes

theorem fromByte_eq (before after : Text) : fromByte (before ++ after) before.bytes = .ok after := by
  rw [fromByte, slice_eq_ok_iff]
  exact ⟨before, [], by simp, rfl, (Text.bytes_append before after).symm⟩

end Access
end SchemaDiagram
