import Mathlib.Data.List.Forall2
import SchemaDiagram.Proofs.Source.Pass

/-! # Nesting of blocks

A table, an enum or a reference block is opened at top level only, so that it lies at the bottom of the
stack, and what lies above it follows from its kind. A statement opens the block that it is the header of
and no other. The header of a table stands at top level, even if it was taken for a line of the table in
front of it at first.
-/
namespace SchemaDiagram

/-- Statements directly inside a block of this kind are its body. -/
def BlockKind.HasBody : BlockKind → Prop
  | table | enum | ref => True
  | nested | other => False

instance (kind : BlockKind) : Decidable kind.HasBody := by
  cases kind <;> simp only [BlockKind.HasBody] <;> infer_instance

theorem BlockKind.body?_context_of_hasBody {kind : BlockKind} (h : kind.HasBody) (i : Nat) :
    (kind.context i).body? = some i := by
  cases kind with
  | table => rfl
  | enum => rfl
  | ref => rfl
  | nested => exact h.elim
  | other => exact h.elim

theorem BlockKind.hasBody_of_body?_context {kind : BlockKind} {i j : Nat} (h : (kind.context i).body? = some j) :
    kind.HasBody := by
  cases kind with
  | table => trivial
  | enum => trivial
  | ref => trivial
  | nested => cases h
  | other => cases h

theorem BlockKind.ofHeader_ne_nested (t : Text) : ofHeader t ≠ .nested := by
  intro h
  rw [ofHeader] at h
  split at h
  · cases h
  · split at h
    · cases h
    · split at h
      · cases h
      · split at h <;> cases h

/-- Kinds of open blocks, innermost first: nested blocks in a table, or plain ones in anything else. -/
inductive Stacked : List BlockKind → Prop
  | none : Stacked []
  | inTable (n : Nat) : Stacked (List.replicate n .nested ++ [.table])
  | inOther (n : Nat) {kind : BlockKind} (h : kind = .enum ∨ kind = .ref ∨ kind = .other) :
      Stacked (List.replicate n .other ++ [kind])

namespace Stacked

variable {kind : BlockKind} {kinds : List BlockKind}

theorem singleton (h : kind ≠ .nested) : Stacked [kind] := by
  cases kind with
  | table => exact .inTable 0
  | nested => exact (h rfl).elim
  | enum => exact .inOther 0 (.inl rfl)
  | ref => exact .inOther 0 (.inr (.inl rfl))
  | other => exact .inOther 0 (.inr (.inr rfl))

theorem tail (h : Stacked (kind :: kinds)) : Stacked kinds := by
  generalize hks : kind :: kinds = ks at h
  cases h with
  | none => cases hks
  | inTable n =>
      cases n with
      | zero =>
          cases hks
          exact .none
      | succ n =>
          cases hks
          exact .inTable n
  | inOther n hk =>
      cases n with
      | zero =>
          cases hks
          exact .none
      | succ n =>
          cases hks
          exact .inOther n hk

/-- What opens in a block without ending it. -/
theorem cons_nested (h : Stacked (kind :: kinds)) (hk : kind = .table ∨ kind = .nested) :
    Stacked (.nested :: kind :: kinds) := by
  generalize hks : kind :: kinds = ks at h
  cases h with
  | none => cases hks
  | inTable n => exact .inTable (n + 1)
  | inOther n hkind =>
      cases n with
      | zero =>
          cases hks
          rcases hkind with rfl | rfl | rfl <;> rcases hk with hk | hk <;> cases hk
      | succ n =>
          cases hks
          rcases hk with hk | hk <;> cases hk

theorem cons_other (h : Stacked (kind :: kinds)) (hk : kind = .enum ∨ kind = .ref ∨ kind = .other) :
    Stacked (.other :: kind :: kinds) := by
  generalize hks : kind :: kinds = ks at h
  cases h with
  | none => cases hks
  | inTable n =>
      cases n with
      | zero =>
          cases hks
          rcases hk with hk | hk | hk <;> cases hk
      | succ n =>
          cases hks
          rcases hk with hk | hk | hk <;> cases hk
  | inOther n hkind => exact .inOther (n + 1) hkind

/-- A block with a body has nothing below it. -/
theorem eq_nil_of_hasBody (h : Stacked (kind :: kinds)) (hk : kind.HasBody) : kinds = [] := by
  generalize hks : kind :: kinds = ks at h
  cases h with
  | none => cases hks
  | inTable n =>
      cases n with
      | zero => cases hks; rfl
      | succ n => cases hks; exact hk.elim
  | inOther n hkind =>
      cases n with
      | zero => cases hks; rfl
      | succ n => cases hks; exact hk.elim

end Stacked

namespace Outline

variable {o : Outline}

/-- What every step keeps of stack, headers and contexts. -/
structure Nested (o : Outline) : Prop where
  stacked : ∃ kinds, List.Forall₂ (fun i kind => o.kinds[i]? = some kind) o.stack kinds ∧ Stacked kinds
  opens_iff : ∀ h i : Nat, o.opens[h]? = some (some i) ↔ o.headers[i]? = some (some h)
  pending_opens : ∀ h : Nat, o.pending = some h → o.opens[h]? = some none
  topLevel : ∀ i h : Nat, o.kinds[i]? = some .table → o.headers[i]? = some (some h) → o.contexts[h]? = some .topLevel

theorem nested_empty : Nested empty :=
  ⟨⟨[], .nil, .none⟩, by simp [empty, opens, headers], nofun, by simp [empty, kinds]⟩

/-! ## Text -/

theorem Nested.setContinuing (h : o.Nested) (continuing : Bool) : ({ o with continuing } : Outline).Nested :=
  ⟨h.stacked, h.opens_iff, h.pending_opens, h.topLevel⟩

theorem Nested.appendToLast (h : o.Nested) (content : Text) : (o.appendToLast content).Nested := by
  have hopens : (o.appendToLast content).opens = o.opens := by
    apply map_modify_of_eq
    exact fun _ => rfl
  have hcontexts : (o.appendToLast content).contexts = o.contexts := by
    apply map_modify_of_eq
    exact fun _ => rfl
  refine ⟨h.stacked, ?_, ?_, ?_⟩
  · rw [hopens]
    exact h.opens_iff
  · rw [hopens]
    exact h.pending_opens
  · rw [hcontexts]
    exact h.topLevel

theorem Nested.addStatement (h : o.Nested) {s : Statement} (hs : s.opens = none) : (o.addStatement s).Nested := by
  have hopens : (o.addStatement s).opens = o.opens ++ [none] := by
    rw [← hs]
    exact List.map_append
  have hlen : o.opens.length = o.statements.length := List.length_map _
  refine ⟨?_, fun p i => ?_, fun p hp => ?_, fun i p hk hh => ?_⟩
  · rw [kinds_addStatement]
    exact h.stacked
  · rw [hopens, headers_addStatement, ← h.opens_iff, List.getElem?_append, List.getElem?_singleton]
    split
    · rfl
    · next hge =>
        rw [List.getElem?_eq_none (Nat.le_of_not_lt hge)]
        split <;> simp
  · obtain rfl := Option.some.inj hp
    rw [hopens, ← hlen, List.getElem?_concat_length]
  · rw [kinds_addStatement] at hk
    rw [headers_addStatement] at hh
    have hctx := h.topLevel i p hk hh
    have hcontexts : (o.addStatement s).contexts = o.contexts ++ [s.context] := List.map_append
    rw [hcontexts, List.getElem?_append_left (List.getElem?_eq_some_iff.mp hctx).1, hctx]

/-! ## Braces -/

theorem Nested.opens_iff_push (h : o.Nested) {kind : BlockKind} {header : Option Nat}
    (hopens : ∀ p, header = some p → o.opens[p]? = some none) (line column q i : Nat) :
    (o.push kind header line column).opens[q]? = some (some i) ↔
      (o.push kind header line column).headers[i]? = some (some q) := by
  have hlen : o.headers.length = o.blocks.length := List.length_map _
  have hnew : (o.headers ++ [header])[i]? = some (some q) ↔
      o.headers[i]? = some (some q) ∨ i = o.blocks.length ∧ header = some q := by
    rw [List.getElem?_append, List.getElem?_singleton]
    split
    · next hlt =>
        have hne : i ≠ o.blocks.length := by omega
        simp [hne]
    · next hge =>
        rw [List.getElem?_eq_none (Nat.le_of_not_lt hge)]
        split
        · next hi =>
            have heq : i = o.blocks.length := by omega
            simp [heq]
        · next hi =>
            have hne : i ≠ o.blocks.length := by omega
            simp [hne]
  rw [headers_push, hnew, ← h.opens_iff q i]
  cases header with
  | none => simp only [push, opens, reduceCtorEq, and_false, or_false]
  | some p =>
      have hp := hopens p rfl
      rw [opens_push_some, List.getElem?_modify]
      by_cases hq : p = q
      · subst hq
        simp [hp, eq_comm]
      · simp [hq]

theorem Nested.push {kind : BlockKind} {header : Option Nat} (h : o.Nested)
    (hstack : ∃ kinds, List.Forall₂ (fun i kind => o.kinds[i]? = some kind) o.stack kinds ∧ Stacked (kind :: kinds))
    (hopens : ∀ p, header = some p → o.opens[p]? = some none)
    (htop : kind = .table → ∀ p, header = some p → o.contexts[p]? = some .topLevel) (line column : Nat) :
    (o.push kind header line column).Nested := by
  have hlen : o.kinds.length = o.blocks.length := List.length_map _
  have hheaders : o.headers.length = o.blocks.length := List.length_map _
  refine ⟨?_, h.opens_iff_push hopens line column, nofun, fun i p hk hh => ?_⟩
  · obtain ⟨kinds, hkinds, hstacked⟩ := hstack
    rw [kinds_push]
    refine ⟨kind :: kinds, .cons ?_ (hkinds.imp fun i k hk => ?_), hstacked⟩
    · rw [← hlen, List.getElem?_concat_length]
    · rw [List.getElem?_append_left (List.getElem?_eq_some_iff.mp hk).1, hk]
  · rw [kinds_push] at hk
    rw [headers_push] at hh
    rw [contexts_push]
    by_cases hi : i < o.blocks.length
    · rw [List.getElem?_append_left (by omega)] at hk hh
      exact h.topLevel i p hk hh
    · have hlt := (List.getElem?_eq_some_iff.mp hk).1
      rw [List.length_append, List.length_singleton] at hlt
      obtain rfl : i = o.blocks.length := by omega
      rw [← hlen, List.getElem?_concat_length, Option.some.injEq] at hk
      rw [← hheaders, List.getElem?_concat_length, Option.some.injEq] at hh
      exact htop hk p hh

theorem Nested.cutShortAt (h : o.Nested) (header : Nat) : (o.cutShortAt header).Nested := by
  refine ⟨⟨[], .nil, .none⟩, ?_, ?_, ?_⟩
  · rw [opens_cutShortAt, headers_cutShortAt]
    exact h.opens_iff
  · rw [opens_cutShortAt]
    exact h.pending_opens
  · rw [kinds_cutShortAt, headers_cutShortAt, contexts_cutShortAt]
    intro i p hk hh
    rw [List.getElem?_modify, h.topLevel i p hk hh]
    split <;> rfl

theorem Nested.closeBrace (h : o.Nested) (line column : Nat) : (o.closeBrace line column).Nested := by
  obtain ⟨hstatements, hkinds, hheaders, hpending, -, hstack⟩ := closeBrace_frame o line column
  have hopens : (o.closeBrace line column).opens = o.opens := congrArg (List.map Statement.opens) hstatements
  have hcontexts : (o.closeBrace line column).contexts = o.contexts :=
    congrArg (List.map Statement.context) hstatements
  refine ⟨?_, ?_, ?_, ?_⟩
  · obtain ⟨kinds, hforall, hstacked⟩ := h.stacked
    rw [hkinds]
    rcases hstack with hs | hs
    · rw [hs]
      exact ⟨kinds, hforall, hstacked⟩
    · rw [hs]
      generalize o.stack = stack at hforall
      cases hforall with
      | nil => exact ⟨[], .nil, .none⟩
      | cons _ hrest => exact ⟨_, hrest, hstacked.tail⟩
  · rw [hopens, hheaders]
    exact h.opens_iff
  · rw [hpending]
    exact nofun
  · rw [hkinds, hheaders, hcontexts]
    exact h.topLevel

/-- What an opening brace opens, by what the innermost block is. -/
theorem openBrace_eq (hc : o.Consistent) (line column : Nat) :
    (o.stack = [] ∧ o.openBrace line column = o.push (o.announced.getD .other) o.pending line column) ∨
    (∃ header, o.pending = some header ∧
      o.openBrace line column = (o.cutShortAt header).push .table (some header) line column) ∨
    ∃ top rest kind, o.stack = top :: rest ∧ o.kinds[top]? = some kind ∧
      ((kind = .table ∨ kind = .nested) ∧ o.openBrace line column = o.push .nested o.pending line column ∨
      (kind = .enum ∨ kind = .ref ∨ kind = .other) ∧
        o.openBrace line column = o.push .other o.pending line column) := by
  rcases hc.context_cases with ⟨hs, hctx⟩ | ⟨top, rest, kind, hs, hk, hctx⟩
  · refine .inl ⟨hs, ?_⟩
    rw [openBrace, hctx]
  · refine .inr ?_
    cases kind with
    | table =>
        simp only [openBrace, hctx, BlockKind.context]
        split
        · next hp _ => exact .inl ⟨_, hp, rfl⟩
        · exact .inr ⟨top, rest, _, hs, hk, .inl ⟨.inl rfl, rfl⟩⟩
    | nested =>
        simp only [openBrace, hctx, BlockKind.context]
        split
        · next hp _ => exact .inl ⟨_, hp, rfl⟩
        · exact .inr ⟨top, rest, _, hs, hk, .inl ⟨.inr rfl, rfl⟩⟩
    | enum => exact .inr ⟨top, rest, _, hs, hk, .inr ⟨.inl rfl, by simp only [openBrace, hctx, BlockKind.context]⟩⟩
    | ref =>
        exact .inr ⟨top, rest, _, hs, hk, .inr ⟨.inr (.inl rfl), by simp only [openBrace, hctx, BlockKind.context]⟩⟩
    | other =>
        exact .inr ⟨top, rest, _, hs, hk, .inr ⟨.inr (.inr rfl), by simp only [openBrace, hctx, BlockKind.context]⟩⟩

theorem announced_ne_nested (o : Outline) : o.announced.getD .other ≠ .nested := by
  cases ha : o.announced with
  | none => simp
  | some kind =>
      obtain ⟨p, -, hs⟩ := Option.bind_eq_some_iff.mp ha
      obtain ⟨s, -, rfl⟩ := Option.map_eq_some_iff.mp hs
      exact BlockKind.ofHeader_ne_nested s.text

theorem Consistent.context_pending (h : o.Consistent) {p : Nat} (hp : o.pending = some p) :
    o.contexts[p]? = some o.context := by
  obtain ⟨hlast, hctx⟩ := h.pending_last p hp
  have hlen : o.contexts.length = o.statements.length := List.length_map _
  rw [List.getLast?_eq_getElem?] at hctx
  rwa [show p = o.contexts.length - 1 by omega]

theorem Nested.openBrace (h : o.Nested) (hc : o.Consistent) (line column : Nat) :
    (o.openBrace line column).Nested := by
  -- the pending statement is the last one, so that its context is that of what is open now
  rcases openBrace_eq hc line column with ⟨hs, hopen⟩ | ⟨header, hp, hopen⟩ | ⟨top, rest, kind, hs, hk, hopen⟩
  · rw [hopen]
    refine h.push ⟨[], ?_, .singleton o.announced_ne_nested⟩ h.pending_opens (fun _ p hp => ?_) line column
    · rw [hs]
      exact .nil
    · rw [hc.context_pending hp, context_of_nil hs]
  · rw [hopen]
    refine (h.cutShortAt header).push ⟨[], .nil, .inTable 0⟩ (fun p hp' => ?_) (fun _ p hp' => ?_) line column
    · obtain rfl := Option.some.inj hp'
      rw [opens_cutShortAt]
      exact h.pending_opens header hp
    · obtain rfl := Option.some.inj hp'
      rw [contexts_cutShortAt, List.getElem?_modify, hc.context_pending hp]
      simp
  · obtain ⟨kinds, hkinds, hstacked⟩ := h.stacked
    have hinner := hkinds
    rw [hs] at hinner
    cases hinner with
    | cons hk' hrest =>
        obtain rfl := Option.some.inj (hk.symm.trans hk')
        rcases hopen with ⟨hkind, hopen⟩ | ⟨hkind, hopen⟩
        · rw [hopen]
          exact h.push ⟨_, hkinds, hstacked.cons_nested hkind⟩ h.pending_opens nofun line column
        · rw [hopen]
          exact h.push ⟨_, hkinds, hstacked.cons_other hkind⟩ h.pending_opens nofun line column

theorem Nested.step (h : o.Nested) (hc : o.Consistent) (s : Step) : (o.step s).Nested := by
  rcases o.step_cases s with
    ⟨continuing, hs⟩ | ⟨content, hs⟩ | ⟨added, -, hopens, hs⟩ | ⟨line, column, hs⟩ | ⟨line, column, hs⟩
  · rw [hs]
    exact h.setContinuing continuing
  · rw [hs]
    exact h.appendToLast content
  · rw [hs]
    exact h.addStatement hopens
  · rw [hs]
    exact h.openBrace hc line column
  · rw [hs]
    exact h.closeBrace line column

theorem nested_after (steps : List Step) : (after steps).Nested :=
  (after_induction (P := fun o => o.Consistent ∧ o.Nested) ⟨consistent_empty, nested_empty⟩
    (fun _ s h => ⟨h.1.step s, h.2.step h.1 s⟩) steps).2

/-! ## Bodies and headers at the end -/

theorem findIdxs_congr {α : Type} {p q : α → Bool} {l : List α} (h : ∀ a ∈ l, p a = q a) (start : Nat) :
    l.findIdxs p start = l.findIdxs q start := by
  induction l generalizing start with
  | nil => rfl
  | cons a rest ih =>
      rw [List.findIdxs_cons, List.findIdxs_cons, h a List.mem_cons_self,
        ih fun b hb => h b (List.mem_cons_of_mem a hb)]

theorem kinds_getElem? {i : Nat} {b : Block} (hb : o.blocks[i]? = some b) : o.kinds[i]? = some b.kind := by
  rw [kinds, List.getElem?_map, hb]
  rfl

/-- A statement names a block in its context if it stands directly inside it. -/
theorem Consistent.body?_context_iff (h : o.Consistent) {i : Nat} {b : Block} (hb : o.blocks[i]? = some b)
    {s : Statement} (hs : s ∈ o.statements) :
    s.context.body? = some i ↔ b.kind.HasBody ∧ s.context = b.kind.context i := by
  constructor
  · intro hi
    obtain ⟨kind, hkind, hc⟩ := h.context_eq s.context (List.mem_map_of_mem hs) i hi
    obtain rfl := Option.some.inj ((kinds_getElem? hb).symm.trans hkind)
    exact ⟨BlockKind.hasBody_of_body?_context (hc ▸ hi), hc⟩
  · rintro ⟨hbody, hc⟩
    rw [hc]
    exact BlockKind.body?_context_of_hasBody hbody i

theorem Consistent.body_of_hasBody (h : o.Consistent) {i : Nat} {b : Block} (hb : o.blocks[i]? = some b)
    (hbody : b.kind.HasBody) : b.body = o.statements.findIdxs (·.context = b.kind.context i) := by
  rw [h.body_eq i b hb, placedIn, contexts, List.findIdxs_map]
  refine findIdxs_congr (fun s hs => ?_) 0
  rw [Function.comp_apply, decide_eq_decide, h.body?_context_iff hb hs, and_iff_right hbody]

theorem Consistent.body_of_not_hasBody (h : o.Consistent) {i : Nat} {b : Block} (hb : o.blocks[i]? = some b)
    (hbody : ¬ b.kind.HasBody) : b.body = [] := by
  rw [h.body_eq i b hb, placedIn, contexts, List.findIdxs_map, List.findIdxs_eq_nil_iff]
  intro s hs
  rw [Function.comp_apply, decide_eq_false_iff_not, h.body?_context_iff hb hs]
  exact fun hs => hbody hs.1

theorem Nested.opens_iff_header (h : o.Nested) (p i : Nat) :
    (∃ s, o.statements[p]? = some s ∧ s.opens = some i) ↔ ∃ b, o.blocks[i]? = some b ∧ b.header = some p := by
  have hiff := h.opens_iff p i
  rw [opens, headers, List.getElem?_map, List.getElem?_map] at hiff
  simpa only [Option.map_eq_some_iff] using hiff

theorem Nested.exists_header (h : o.Nested) (hc : o.Consistent) {b : Block} (hb : b ∈ o.blocks)
    (hk : b.kind = .table) : ∃ s, o.header? b = some s ∧ s.context = .topLevel := by
  obtain ⟨i, hi⟩ := List.getElem?_of_mem hb
  obtain ⟨p, s, hp, hs, -⟩ := hc.header_of_table b hb hk
  have hheader : o.headers[i]? = some (some p) := by
    rw [headers, List.getElem?_map, hi, ← hp]
    rfl
  have hctx := h.topLevel i p ((kinds_getElem? hi).trans (congrArg some hk)) hheader
  rw [contexts, List.getElem?_map, hs] at hctx
  refine ⟨s, ?_, Option.some.inj hctx⟩
  rw [header?, hp]
  exact hs

/-- A block with a body is open alone or at the bottom. -/
theorem Nested.eq_nil_of_hasBody (h : o.Nested) {top : Nat} {below : List Nat} {kind : BlockKind}
    (hs : o.stack = top :: below) (hk : o.kinds[top]? = some kind) (hbody : kind.HasBody) : below = [] := by
  obtain ⟨kinds, hkinds, hstacked⟩ := h.stacked
  rw [hs] at hkinds
  cases hkinds with
  | cons hk' hrest =>
      obtain rfl := Option.some.inj (hk.symm.trans hk')
      obtain rfl := hstacked.eq_nil_of_hasBody hbody
      cases hrest
      rfl

theorem exists_push (o : Outline) (kind : BlockKind) (header : Option Nat) (line column : Nat) :
    ∃ b rest, (o.push kind header line column).blocks[o.blocks.length]? = some b ∧
      (o.push kind header line column).stack = o.blocks.length :: rest :=
  ⟨_, _, List.getElem?_concat_length, rfl⟩

/-- The block that an opening brace opens comes last and lies on top of what was open, and on nothing if it
has a body. -/
theorem exists_openBrace (hc : o.Consistent) (h : o.Nested) (line column : Nat) :
    ∃ b rest, (o.openBrace line column).blocks[o.blocks.length]? = some b ∧
      (o.openBrace line column).stack = o.blocks.length :: rest ∧ (b.kind.HasBody → rest = []) := by
  have hpush : ∃ b rest, (o.openBrace line column).blocks[o.blocks.length]? = some b ∧
      (o.openBrace line column).stack = o.blocks.length :: rest := by
    rcases openBrace_cases o line column with ⟨header, -, -, hopen⟩ | ⟨kind, -, hopen⟩
    · have hlen : (o.cutShortAt header).blocks.length = o.blocks.length := by
        simpa [kinds] using congrArg List.length (kinds_cutShortAt (o := o) header)
      rw [hopen, ← hlen]
      exact exists_push _ _ _ _ _
    · rw [hopen]
      exact exists_push _ _ _ _ _
  obtain ⟨b, rest, hb, hs⟩ := hpush
  exact ⟨b, rest, hb, hs, (h.openBrace hc line column).eq_nil_of_hasBody hs (kinds_getElem? hb)⟩

end Outline

/-- Blocks nest by their kinds, a body holds the statements with its context, and a statement opens the
block that it is the header of. -/
theorem Source.block_structure (text : Text) :
    (∀ done todo, text.steps = done ++ todo →
      ∃ kinds, List.Forall₂ (fun i kind => (Outline.after done).kinds[i]? = some kind)
        (Outline.after done).stack kinds ∧ Stacked kinds) ∧
    (∀ done l start todo, text.steps = done ++ .event l (.openBrace start) :: todo →
      let o := Outline.after done
      let o' := Outline.after (done ++ [.event l (.openBrace start)])
      ∃ b rest, o'.blocks[o.blocks.length]? = some b ∧ o'.stack = o.blocks.length :: rest ∧
        (b.kind.HasBody → rest = [])) ∧
    let o := (Source.ofText text).outline
    (∀ (i : Nat) b, o.blocks[i]? = some b →
      if b.kind.HasBody then
        b.body = o.statements.findIdxs (·.context = b.kind.context i) ∧
        o.body b = o.statements.filter (·.context = b.kind.context i)
      else b.body = [] ∧ o.body b = []) ∧
    (∀ h i : Nat, (∃ s, o.statements[h]? = some s ∧ s.opens = some i) ↔
      ∃ b, o.blocks[i]? = some b ∧ b.header = some h) ∧
    ∀ b ∈ o.blocks, b.kind = .table → ∃ s, o.header? b = some s ∧ s.context = .topLevel := by
  have hc := Outline.consistent_ofText text
  have hn : (ofText text).outline.Nested := by
    rw [Outline.outline_ofText]
    exact Outline.nested_after text.steps
  refine ⟨fun done _ _ => (Outline.nested_after done).stacked, fun done l start _ _ => ?_, fun i b hb => ?_,
    hn.opens_iff_header, fun b hb hk => hn.exists_header hc hb hk⟩
  · rw [Outline.after_concat]
    exact Outline.exists_openBrace (Outline.consistent_after done) (Outline.nested_after done) _ _
  · split
    · next hbody =>
        have hb' := hc.body_of_hasBody hb hbody
        refine ⟨hb', ?_⟩
        rw [Outline.body, hb', Outline.filterMap_findIdxs]
    · next hbody =>
        have hb' := hc.body_of_not_hasBody hb hbody
        refine ⟨hb', ?_⟩
        rw [Outline.body, hb', List.filterMap_nil]

/-- A table whose header stands in a block of the table in front of it. -/
def nestedBlocks : Text :=
  "Table A \x7b\n id int\n indexes \x7b\nTable B \x7b\n x int\n\x7d\n\x7d\n\x7d\nenum E \x7b a \x7d".toList

/-- The brace that opens the second table, the one behind the first ten steps. -/
def secondTable : Step := .event ⟨4, false, "Table B ".toList.map .plain ++ [.openBrace]⟩ (.openBrace 8)

theorem Source.block_structure_nestedBlocks :
    nestedBlocks.steps = nestedBlocks.steps.take 10 ++ secondTable :: nestedBlocks.steps.drop 11 ∧
    (Outline.after (nestedBlocks.steps.take 10)).stack = [1, 0] ∧
    (∃ b, (Outline.after (nestedBlocks.steps.take 10 ++ [secondTable])).blocks[2]? = some b ∧
      (Outline.after (nestedBlocks.steps.take 10 ++ [secondTable])).stack = [2]) ∧
    (∃ b, (ofText nestedBlocks).outline.blocks[0]? = some b ∧
      b.body = (ofText nestedBlocks).outline.statements.findIdxs (·.context = .table 0)) ∧
    ∃ b ∈ (ofText nestedBlocks).outline.blocks, b.kind = .table ∧
      ∃ s, (ofText nestedBlocks).outline.header? b = some s ∧ s.context = .topLevel := by
  have hsteps : nestedBlocks.steps = nestedBlocks.steps.take 10 ++ secondTable :: nestedBlocks.steps.drop 11 := by
    decide +kernel
  have hstack : (Outline.after (nestedBlocks.steps.take 10)).stack = [1, 0] := by decide +kernel
  have hlength : (Outline.after (nestedBlocks.steps.take 10)).blocks.length = 2 := by decide +kernel
  have hkind : ((Outline.after (nestedBlocks.steps.take 10 ++ [secondTable])).blocks[2]?).map Block.kind =
      some .table := by decide +kernel
  have hfirst : ((ofText nestedBlocks).outline.blocks[0]?).map Block.kind = some .table := by decide +kernel
  obtain ⟨-, hopen, hbody, -, hheader⟩ := block_structure nestedBlocks
  obtain ⟨b, rest, hb, htop, hrest⟩ := hopen _ _ _ _ hsteps
  obtain ⟨b', hb', hk'⟩ := Option.map_eq_some_iff.mp hkind
  obtain ⟨a, ha, hka⟩ := Option.map_eq_some_iff.mp hfirst
  have hbelow := hbody 0 a ha
  simp only [hlength] at hb htop
  obtain rfl := Option.some.inj (hb'.symm.trans hb)
  rw [hrest (by rw [hk']; trivial)] at htop
  rw [if_pos (by rw [hka]; trivial), hka] at hbelow
  exact ⟨hsteps, hstack, ⟨b', hb, htop⟩, ⟨a, ha, hbelow.1⟩, a, List.mem_of_getElem? ha, hka,
    hheader a (List.mem_of_getElem? ha) hka⟩

end SchemaDiagram
