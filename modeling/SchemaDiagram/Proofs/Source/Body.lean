import Mathlib.Data.List.Basic
import SchemaDiagram.Source.Outline
import SchemaDiagram.Proofs.Source.Token

/-! # Bodies of blocks

The body of a block lists the statements whose context names the block, in order. The header of a new
table is the one statement that changes its context; it is still the last statement then, and so the
last one of the body it leaves.
-/
namespace SchemaDiagram

def BlockKind.context (block : Nat) : BlockKind → Context
  | table => .table block
  | enum => .enum block
  | ref => .ref block
  | nested => .nested
  | other => .other

theorem BlockKind.eq_of_body?_context {block i : Nat} {kind : BlockKind} (h : (kind.context block).body? = some i) :
    i = block := by
  cases kind <;> simp_all [context, Context.body?]

theorem BlockKind.ofHeader_eq_table_iff {t : Text} :
    ofHeader t = .table ↔ ∃ x, firstToken? t = some x ∧ x.isWord "table" = true := by
  cases hx : firstToken? t with
  | none => simp [ofHeader, hx]
  | some x =>
      simp only [ofHeader, hx, Option.some.injEq, exists_eq_left']
      constructor
      · intro h
        by_contra hne
        rw [if_neg hne] at h
        split at h
        · cases h
        · split at h <;> cases h
      · intro h
        rw [if_pos h]

theorem Lexeme.token_of_isWord {x : Lexeme} {keyword : String} (h : x.isWord keyword = true) :
    ∃ w, x.token = .word w := by
  simp only [isWord] at h
  split at h
  · exact ⟨_, ‹_›⟩
  · cases h

/-- A line that follows does not change what a header announces. -/
theorem BlockKind.ofHeader_append {t : Text} (h : ofHeader t = .table) (more : Text) :
    ofHeader (t ++ '\n' :: more) = .table := by
  obtain ⟨x, hx, hxt⟩ := ofHeader_eq_table_iff.mp h
  obtain ⟨w, hw⟩ := Lexeme.token_of_isWord hxt
  obtain ⟨y, hy, hyw⟩ := Option.map_eq_some_iff.mp (head?_tokensFrom_append hx hw more)
  refine ofHeader_eq_table_iff.mpr ⟨y, hy, ?_⟩
  simpa only [Lexeme.isWord, hyw, hw] using hxt

theorem map_modify {α β : Type} {f : α → α} {g : α → β} (f' : β → β) (h : ∀ a, g (f a) = f' (g a)) (l : List α)
    (i : Nat) : (l.modify i f).map g = (l.map g).modify i f' := by
  apply List.ext_getElem?
  intro j
  simp only [List.getElem?_map, List.getElem?_modify]
  cases l[j]? with
  | none => rfl
  | some a => by_cases hij : i = j <;> simp [hij, h]

theorem map_modify_of_eq {α β : Type} {f : α → α} {g : α → β} (h : ∀ a, g (f a) = g a) (l : List α) (i : Nat) :
    (l.modify i f).map g = l.map g := by
  rw [map_modify id h, List.modify_id]

theorem modify_concat {α : Type} (init : List α) (a : α) (f : α → α) :
    (init ++ [a]).modify init.length f = init ++ [f a] := by
  rw [List.modify_eq_take_cons_drop (by simp)]
  simp

namespace Outline

variable {o : Outline}

/-! ## Views -/

def contexts (o : Outline) : List Context := o.statements.map Statement.context

def kinds (o : Outline) : List BlockKind := o.blocks.map Block.kind

def placedIn (o : Outline) (block : Nat) : List Nat := o.contexts.findIdxs (·.body? = some block)

theorem context_of_nil (h : o.stack = []) : o.context = .topLevel := by
  rw [context, h]

theorem context_of_cons {top : Nat} {rest : List Nat} {kind : BlockKind} (h : o.stack = top :: rest)
    (hk : o.kinds[top]? = some kind) : o.context = kind.context top := by
  rw [kinds, List.getElem?_map] at hk
  rw [context, h]
  simp only [hk]
  cases kind <;> rfl

theorem context_congr (o o' : Outline) (hstack : o'.stack = o.stack) (hkinds : o'.kinds = o.kinds) :
    o'.context = o.context := by
  have hk : ∀ i : Nat, (o'.blocks[i]?).map Block.kind = (o.blocks[i]?).map Block.kind := by
    intro i
    rw [← List.getElem?_map, ← List.getElem?_map]
    exact congrArg (·[i]?) hkinds
  simp only [context, hstack, hk]

theorem placedIn_congr {o' : Outline} (h : o'.contexts = o.contexts) (i : Nat) : o'.placedIn i = o.placedIn i := by
  rw [placedIn, placedIn, h]

/-- What every step of the pass keeps. -/
structure Consistent (o : Outline) : Prop where
  body_eq : ∀ i b, o.blocks[i]? = some b → b.body = o.placedIn i
  context_eq : ∀ c ∈ o.contexts, ∀ i, c.body? = some i → ∃ kind, o.kinds[i]? = some kind ∧ c = kind.context i
  stack_lt : ∀ i ∈ o.stack, i < o.blocks.length
  pending_last : ∀ h, o.pending = some h → h + 1 = o.statements.length ∧ o.contexts.getLast? = some o.context
  header_of_table : ∀ b ∈ o.blocks, b.kind = .table → ∃ h s, b.header = some h ∧ o.statements[h]? = some s ∧
    BlockKind.ofHeader s.text = .table
  header_lt : ∀ b ∈ o.blocks, ∀ h, b.header = some h → h < o.statements.length

theorem consistent_empty : Consistent empty := by
  refine ⟨?_, ?_, ?_, ?_, ?_, ?_⟩ <;> simp [empty, contexts]

/-- Only the kind of the innermost open block decides where a statement goes. -/
theorem Consistent.context_cases (h : o.Consistent) :
    (o.stack = [] ∧ o.context = .topLevel) ∨ ∃ top rest kind,
      o.stack = top :: rest ∧ o.kinds[top]? = some kind ∧ o.context = kind.context top := by
  cases hs : o.stack with
  | nil => exact .inl ⟨rfl, context_of_nil hs⟩
  | cons top rest =>
      have hlt : top < o.kinds.length := by
        rw [kinds, List.length_map]
        exact h.stack_lt top (by simp [hs])
      have hk := List.getElem?_eq_getElem hlt
      exact .inr ⟨top, rest, _, rfl, hk, context_of_cons hs hk⟩

theorem Consistent.lt_of_mem_placedIn (h : o.Consistent) {i : Nat} (hi : o.placedIn i ≠ []) :
    i < o.blocks.length := by
  obtain ⟨c, hc, hci⟩ : ∃ c ∈ o.contexts, c.body? = some i := by
    simpa [placedIn, List.findIdxs_eq_nil_iff] using hi
  obtain ⟨kind, hk, -⟩ := h.context_eq c hc i hci
  have hlt := (List.getElem?_eq_some_iff.mp hk).1
  rwa [kinds, List.length_map] at hlt

theorem Consistent.pending_lt (h : o.Consistent) {p : Nat} (hp : o.pending = some p) : p < o.statements.length := by
  have hlast := (h.pending_last p hp).1
  omega

/-! ## Text -/

theorem Consistent.setContinuing (h : o.Consistent) (continuing : Bool) :
    ({ o with continuing } : Outline).Consistent := { h with }

theorem Consistent.withoutPending (h : o.Consistent) : ({ o with pending := none } : Outline).Consistent :=
  { h with pending_last := fun _ hp => nomatch hp }

/-- A statement may change as long as its context stays, and a header of a table stays one. -/
theorem Consistent.modifyStatement (h : o.Consistent) (i : Nat) {f : Statement → Statement}
    (hc : ∀ s, (f s).context = s.context)
    (ht : ∀ s, BlockKind.ofHeader s.text = .table → BlockKind.ofHeader (f s).text = .table) :
    ({ o with statements := o.statements.modify i f } : Outline).Consistent := by
  have hcontexts : (o.statements.modify i f).map Statement.context = o.contexts := map_modify_of_eq hc _ i
  refine { h with body_eq := ?_, context_eq := ?_, pending_last := ?_, header_of_table := ?_, header_lt := ?_ }
  · intro j b hb
    rw [h.body_eq j b hb, placedIn, ← hcontexts]
    rfl
  · intro c hcm
    rw [contexts, hcontexts] at hcm
    exact h.context_eq c hcm
  · intro p hp
    rw [contexts, hcontexts, List.length_modify]
    exact h.pending_last p hp
  · intro b hb hk
    obtain ⟨j, s, hj, hs, hkind⟩ := h.header_of_table b hb hk
    refine ⟨j, if i = j then f s else s, hj, by simp [List.getElem?_modify, hs], ?_⟩
    split
    · exact ht s hkind
    · exact hkind
  · intro b hb p hp
    rw [List.length_modify]
    exact h.header_lt b hb p hp

theorem Consistent.appendToLast (h : o.Consistent) (content : Text) : (o.appendToLast content).Consistent := by
  have hs := h.modifyStatement (o.statements.length - 1)
    (f := fun s => { s with text := s.text ++ '\n' :: content.trimEnd }) (fun _ => rfl)
    (fun _ ht => BlockKind.ofHeader_append ht _)
  exact hs.setContinuing false

theorem getElem?_addBody (blocks : List Block) (c : Context) (index i : Nat) :
    (match c.body? with
      | some block => blocks.modify block fun b => { b with body := b.body ++ [index] }
      | none => blocks)[i]? =
    blocks[i]?.map fun b => { b with body := b.body ++ if c.body? = some i then [index] else [] } := by
  cases hb : c.body? with
  | none => cases blocks[i]? <;> simp
  | some block =>
      simp only [List.getElem?_modify]
      by_cases hi : block = i <;> cases blocks[i]? <;> simp [hi]

theorem Consistent.addStatement (h : o.Consistent) {s : Statement} (hs : s.context = o.context) :
    ({ o with
      statements := o.statements ++ [s]
      blocks := match o.context.body? with
        | some block => o.blocks.modify block fun b => { b with body := b.body ++ [o.statements.length] }
        | none => o.blocks
      pending := some o.statements.length } : Outline).Consistent := by
  have hblocks := getElem?_addBody o.blocks o.context o.statements.length
  generalize (match o.context.body? with
    | some block => o.blocks.modify block fun b => { b with body := b.body ++ [o.statements.length] }
    | none => o.blocks) = bs at hblocks ⊢
  have hcontexts : (o.statements ++ [s]).map Statement.context = o.contexts ++ [o.context] := by
    simp [contexts, hs]
  have hkinds : bs.map Block.kind = o.kinds := by
    apply List.ext_getElem?
    intro i
    rw [kinds, List.getElem?_map, List.getElem?_map, hblocks i, Option.map_map]
    rfl
  refine ⟨?_, ?_, ?_, ?_, ?_, ?_⟩
  · intro i b hb
    rw [hblocks] at hb
    obtain ⟨b₀, hb₀, rfl⟩ := Option.map_eq_some_iff.mp hb
    have hlen : o.contexts.length = o.statements.length := List.length_map _
    rw [placedIn, contexts, hcontexts, List.findIdxs_append, h.body_eq i b₀ hb₀]
    simp [placedIn, hlen]
  · intro c hc i hi
    rw [kinds, hkinds]
    rw [contexts, hcontexts, List.mem_append, List.mem_singleton] at hc
    rcases hc with hc | rfl
    · exact h.context_eq c hc i hi
    · rcases h.context_cases with ⟨-, htop⟩ | ⟨top, rest, kind, -, hk, htop⟩
      · rw [htop] at hi
        cases hi
      · rw [htop] at hi ⊢
        obtain rfl := BlockKind.eq_of_body?_context hi
        exact ⟨kind, hk, rfl⟩
  · intro i hi
    have hlen : bs.length = o.blocks.length := by simpa [kinds] using congrArg List.length hkinds
    rw [hlen]
    exact h.stack_lt i hi
  · intro p hp
    obtain rfl := Option.some.inj hp
    refine ⟨by simp, ?_⟩
    rw [contexts, hcontexts, List.getLast?_concat, Option.some.injEq]
    exact (context_congr o { o with blocks := bs } rfl hkinds).symm
  · intro b hb hk
    obtain ⟨i, hi⟩ := List.getElem?_of_mem hb
    rw [hblocks] at hi
    obtain ⟨b₀, hb₀, rfl⟩ := Option.map_eq_some_iff.mp hi
    obtain ⟨j, t, hj, ht, hkind⟩ := h.header_of_table b₀ (List.mem_of_getElem? hb₀) hk
    have hlt := (List.getElem?_eq_some_iff.mp ht).1
    exact ⟨j, t, hj, by rw [List.getElem?_append_left hlt, ht], hkind⟩
  · intro b hb p hp
    obtain ⟨i, hi⟩ := List.getElem?_of_mem hb
    rw [hblocks] at hi
    obtain ⟨b₀, hb₀, rfl⟩ := Option.map_eq_some_iff.mp hi
    rw [List.length_append]
    exact Nat.lt_add_right _ (h.header_lt b₀ (List.mem_of_getElem? hb₀) p hp)

theorem Consistent.addText (h : o.Consistent) (l : Line) (start : Nat) (content : Text) :
    (o.addText l start content).Consistent := by
  simp only [Outline.addText]
  split
  · exact h.setContinuing false
  · exact (h.addStatement rfl).setContinuing false

/-! ## Opening braces -/

theorem Consistent.push {kind : BlockKind} {header : Option Nat}
    (h : ({ o with pending := none } : Outline).Consistent)
    (ht : kind = .table → ∃ i s, header = some i ∧ o.statements[i]? = some s ∧ BlockKind.ofHeader s.text = .table)
    (hlt : ∀ i, header = some i → i < o.statements.length) (line column : Nat) :
    (o.push kind header line column).Consistent := by
  have hopened : ({ o with
      pending := none
      blocks := o.blocks ++ [⟨kind, header, line, column, false, []⟩]
      stack := o.blocks.length :: o.stack
      depth := o.depth + 1
      continuing := false } : Outline).Consistent := by
    refine ⟨?_, ?_, ?_, fun _ => nofun, ?_, ?_⟩
    · intro i b hb
      rw [List.getElem?_append] at hb
      split at hb
      · exact h.body_eq i b hb
      · -- no statement stands in a block that was not there
        have hnil : o.placedIn i = [] := by
          by_contra hne
          exact absurd (h.lt_of_mem_placedIn hne) ‹_›
        rw [List.getElem?_singleton] at hb
        split at hb
        · obtain rfl := Option.some.inj hb
          exact hnil.symm
        · cases hb
    · intro c hc i hi
      obtain ⟨k, hk, hck⟩ := h.context_eq c hc i hi
      refine ⟨k, ?_, hck⟩
      have hlt := (List.getElem?_eq_some_iff.mp hk).1
      rw [kinds, List.map_append]
      exact (List.getElem?_append_left hlt).trans hk
    · intro i hi
      simp only [List.length_append, List.length_singleton]
      rcases List.mem_cons.mp hi with rfl | hi
      · exact Nat.lt_succ_self _
      · exact Nat.lt_succ_of_lt (h.stack_lt i hi)
    · intro b hb hk
      rcases List.mem_append.mp hb with hb | hb
      · exact h.header_of_table b hb hk
      · obtain rfl := List.mem_singleton.mp hb
        exact ht hk
    · intro b hb p hp
      rcases List.mem_append.mp hb with hb | hb
      · exact h.header_lt b hb p hp
      · obtain rfl := List.mem_singleton.mp hb
        exact hlt p hp
  cases header with
  | none => exact hopened
  | some i =>
      exact hopened.modifyStatement i (f := fun s => { s with opens := some o.blocks.length }) (fun _ => rfl)
        (fun _ hs => hs)

theorem dropLast_findIdxs (init : List Context) (c : Context) (p : Context → Bool) :
    (if ((init ++ [c]).findIdxs p).getLast? = some init.length then ((init ++ [c]).findIdxs p).dropLast
      else (init ++ [c]).findIdxs p) = init.findIdxs p := by
  cases hp : p c with
  | true => simp [List.findIdxs_append, hp]
  | false =>
      have hne : (init.findIdxs p).getLast? ≠ some init.length := by
        intro hlast
        have hmem := List.mem_of_getLast? hlast
        simp at hmem
      simp [List.findIdxs_append, hp, hne]

/-- The statement that turns out to be the header of a table leaves the body it was put in. -/
theorem Consistent.cutShort (h : o.Consistent) {header : Nat} (hp : o.pending = some header) :
    ({ o.cutShortAt header with pending := none } : Outline).Consistent := by
  obtain ⟨hlast, hc⟩ := h.pending_last header hp
  obtain ⟨init, hinit⟩ := List.getLast?_eq_some_iff.mp hc
  have hlen : init.length = header := by
    have hl := congrArg List.length hinit
    simp only [contexts, List.length_map, List.length_append, List.length_singleton] at hl
    omega
  have hcontexts : (o.cutShortAt header).contexts = init ++ [.topLevel] := by
    have hmap : (o.cutShortAt header).contexts = o.contexts.modify header fun _ => .topLevel :=
      map_modify (g := Statement.context) (fun _ => Context.topLevel) (fun _ => by rfl) o.statements header
    rw [hmap, hinit, ← hlen, modify_concat]
  have hplaced : ∀ i, (o.cutShortAt header).placedIn i = init.findIdxs (·.body? = some i) := by
    intro i
    simp [placedIn, hcontexts, List.findIdxs_append, Context.body?]
  have hblocks : ∀ (i : Nat) b, (o.cutShortAt header).blocks[i]? = some b → ∃ b₀, o.blocks[i]? = some b₀ ∧
      b.kind = b₀.kind ∧ b.header = b₀.header ∧ b.body = init.findIdxs (·.body? = some i) := by
    intro i b hb
    have hbody := fun b₀ hb₀ => h.body_eq i b₀ hb₀
    simp only [placedIn, hinit] at hbody
    rcases h.context_cases with ⟨hs, htop⟩ | ⟨top, rest, kind, hs, -, htop⟩
    · simp only [cutShortAt, hs] at hb
      refine ⟨b, hb, rfl, rfl, ?_⟩
      simp [hbody b hb, htop, List.findIdxs_append, Context.body?]
    · simp only [cutShortAt, hs, List.getElem?_modify] at hb
      obtain ⟨b₀, hb₀, rfl⟩ := Option.map_eq_some_iff.mp hb
      refine ⟨b₀, hb₀, ?_⟩
      by_cases hi : top = i
      · have hdrop := dropLast_findIdxs init o.context fun c => decide (c.body? = some i)
        rw [← hbody b₀ hb₀, hlen] at hdrop
        simp only [hi, ↓reduceIte, apply_ite Block.kind, apply_ite Block.header, apply_ite Block.body, ite_self]
        exact ⟨trivial, trivial, hdrop⟩
      · have hnot : o.context.body? ≠ some i := by
          intro hci
          rw [htop] at hci
          exact hi (BlockKind.eq_of_body?_context hci).symm
        simp [hi, hbody b₀ hb₀, List.findIdxs_append, hnot]
  have hkinds : (o.cutShortAt header).kinds = o.kinds := by
    rw [kinds, cutShortAt]
    split
    · rfl
    · apply map_modify_of_eq
      intro b
      split <;> rfl
  refine ⟨?_, ?_, ?_, fun _ => nofun, ?_, ?_⟩
  · intro i b hb
    obtain ⟨b₀, -, -, -, hbody⟩ := hblocks i b hb
    rw [hbody]
    exact (hplaced i).symm
  · intro c hcm i hi
    have hcm : c ∈ (o.cutShortAt header).contexts := hcm
    rw [hcontexts, List.mem_append, List.mem_singleton] at hcm
    rcases hcm with hcm | rfl
    · obtain ⟨k, hk, hck⟩ := h.context_eq c (by simp [hinit, hcm]) i hi
      exact ⟨k, (congrArg (·[i]?) hkinds).trans hk, hck⟩
    · cases hi
  · exact fun i => nofun
  · intro b hb hk
    obtain ⟨i, hi⟩ := List.getElem?_of_mem hb
    obtain ⟨b₀, hb₀, hkind, hheader, -⟩ := hblocks i b hi
    obtain ⟨j, s, hj, hs, ht⟩ := h.header_of_table b₀ (List.mem_of_getElem? hb₀) (hkind ▸ hk)
    refine ⟨j, if header = j then { s with context := .topLevel } else s, hheader.trans hj, ?_, ?_⟩
    · simp [cutShortAt, List.getElem?_modify, hs]
    · split <;> exact ht
  · intro b hb p hp
    obtain ⟨i, hi⟩ := List.getElem?_of_mem hb
    obtain ⟨b₀, hb₀, -, hheader, -⟩ := hblocks i b hi
    have hlt := h.header_lt b₀ (List.mem_of_getElem? hb₀) p (hheader.symm.trans hp)
    simpa [cutShortAt] using hlt

/-- What an opening brace does: the header of a table ends what is open, apart from that it opens a
block as it stands. -/
theorem openBrace_cases (o : Outline) (line column : Nat) :
    (∃ header, o.pending = some header ∧ o.announced = some .table ∧
      o.openBrace line column = (o.cutShortAt header).push .table (some header) line column) ∨
    ∃ kind, (kind = .table → o.announced = some .table) ∧
      o.openBrace line column = o.push kind o.pending line column := by
  simp only [openBrace]
  split
  · refine .inr ⟨_, ?_, rfl⟩
    cases o.announced <;> simp
  · split
    · next hp ha => exact .inl ⟨_, hp, ha, rfl⟩
    · exact .inr ⟨.nested, nofun, rfl⟩
  · split
    · next hp ha => exact .inl ⟨_, hp, ha, rfl⟩
    · exact .inr ⟨.nested, nofun, rfl⟩
  all_goals exact .inr ⟨.other, nofun, rfl⟩

theorem exists_header_of_announced (h : o.announced = some .table) :
    ∃ i s, o.pending = some i ∧ o.statements[i]? = some s ∧ BlockKind.ofHeader s.text = .table := by
  obtain ⟨i, hi, hs⟩ := Option.bind_eq_some_iff.mp h
  obtain ⟨s, hs, ht⟩ := Option.map_eq_some_iff.mp hs
  exact ⟨i, s, hi, hs, ht⟩

theorem Consistent.openBrace (h : o.Consistent) (line column : Nat) : (o.openBrace line column).Consistent := by
  rcases openBrace_cases o line column with ⟨header, hp, ha, hopen⟩ | ⟨kind, hkind, hopen⟩
  · rw [hopen]
    obtain ⟨i, s, hi, hs, ht⟩ := exists_header_of_announced ha
    obtain rfl := Option.some.inj (hp.symm.trans hi)
    refine (h.cutShort hp).push (fun _ => ?_) (fun i hi => ?_) line column
    · exact ⟨header, { s with context := .topLevel }, rfl, by simp [cutShortAt, hs], ht⟩
    · obtain rfl := Option.some.inj hi
      simpa [cutShortAt] using h.pending_lt hp
  · rw [hopen]
    exact h.withoutPending.push (fun hk => exists_header_of_announced (hkind hk)) (fun _ => h.pending_lt) line column

/-! ## Closing braces -/

theorem Consistent.close (h : o.Consistent) (block : Nat) : (o.close block).Consistent := by
  have hblocks : ∀ (i : Nat) b, (o.close block).blocks[i]? = some b →
      ∃ b₀, o.blocks[i]? = some b₀ ∧ b.kind = b₀.kind ∧ b.header = b₀.header ∧ b.body = b₀.body := by
    intro i b hb
    rw [Outline.close, List.getElem?_modify] at hb
    obtain ⟨b₀, hb₀, rfl⟩ := Option.map_eq_some_iff.mp hb
    refine ⟨b₀, hb₀, ?_⟩
    split <;> exact ⟨rfl, rfl, rfl⟩
  have hkinds : (o.close block).kinds = o.kinds := by
    apply map_modify_of_eq
    exact fun _ => rfl
  refine ⟨?_, ?_, ?_, ?_, ?_, ?_⟩
  · intro i b hb
    obtain ⟨b₀, hb₀, -, -, hbody⟩ := hblocks i b hb
    rw [hbody]
    exact h.body_eq i b₀ hb₀
  · rw [hkinds]
    exact h.context_eq
  · intro i hi
    simp only [Outline.close, List.length_modify]
    exact h.stack_lt i hi
  · intro p hp
    rw [context_congr o (o.close block) rfl hkinds]
    exact h.pending_last p hp
  · intro b hb hk
    obtain ⟨i, hi⟩ := List.getElem?_of_mem hb
    obtain ⟨b₀, hb₀, hkind, hheader, -⟩ := hblocks i b hi
    rw [hheader]
    exact h.header_of_table b₀ (List.mem_of_getElem? hb₀) (hkind ▸ hk)
  · intro b hb p hp
    obtain ⟨i, hi⟩ := List.getElem?_of_mem hb
    obtain ⟨b₀, hb₀, -, hheader, -⟩ := hblocks i b hi
    exact h.header_lt b₀ (List.mem_of_getElem? hb₀) p (hheader.symm.trans hp)

/-- Blocks may leave the stack as long as no statement waits for a brace. -/
theorem Consistent.shrink (h : o.Consistent) {o' : Outline} (hstatements : o'.statements = o.statements)
    (hblocks : o'.blocks = o.blocks) (hstack : o'.stack ⊆ o.stack) (hp : o'.pending = none) : o'.Consistent := by
  have hcontexts : o'.contexts = o.contexts := congrArg (List.map _) hstatements
  have hkinds : o'.kinds = o.kinds := congrArg (List.map _) hblocks
  refine ⟨?_, ?_, ?_, ?_, ?_, ?_⟩
  · rw [hblocks, funext (placedIn_congr hcontexts)]
    exact h.body_eq
  · rw [hcontexts, hkinds]
    exact h.context_eq
  · rw [hblocks]
    exact fun i hi => h.stack_lt i (hstack hi)
  · simp [hp]
  · rw [hblocks, hstatements]
    exact h.header_of_table
  · rw [hblocks, hstatements]
    exact h.header_lt

theorem Consistent.closeBrace (h : o.Consistent) (line column : Nat) : (o.closeBrace line column).Consistent := by
  simp only [Outline.closeBrace]
  split
  · exact h.shrink rfl rfl (List.Subset.refl _) rfl
  · split
    · next top rest hs =>
        have hsub : rest ⊆ o.stack := by
          rw [hs]
          exact List.subset_cons_self _ _
        apply Consistent.close
        exact h.shrink rfl rfl hsub rfl
    · apply Consistent.close
      exact h.shrink rfl rfl (List.Subset.refl _) rfl
    · exact h.shrink rfl rfl (List.Subset.refl _) rfl

/-! ## The whole pass -/

theorem Consistent.addEvent (h : o.Consistent) (l : Line) (e : Event) : (addEvent l o e).Consistent := by
  cases e with
  | text start content =>
      simp only [Outline.addEvent]
      split
      · exact h.appendToLast content
      · exact h.addText l start content
  | openBrace start => exact h.openBrace _ _
  | closeBrace start => exact h.closeBrace _ _

theorem Consistent.addEvents (h : o.Consistent) (l : Line) (events : List Event) :
    (events.foldl (Outline.addEvent l) o).Consistent := by
  induction events generalizing o with
  | nil => exact h
  | cons e rest ih => exact ih (h.addEvent l e)

theorem Consistent.addLine (h : o.Consistent) (l : Line) : (o.addLine l).Consistent :=
  (h.setContinuing l.continuesString).addEvents l l.events

theorem Consistent.addLines (h : o.Consistent) (lines : List Line) :
    (lines.foldl Outline.addLine o).Consistent := by
  induction lines generalizing o with
  | nil => exact h
  | cons l rest ih => exact ih (h.addLine l)

theorem consistent_ofLines (lines : List Line) : (ofLines lines).Consistent := consistent_empty.addLines lines

theorem consistent_ofText (t : Text) : (Source.ofText t).outline.Consistent := consistent_ofLines _

/-! ## The statements of a block -/

theorem filterMap_findIdxs {α : Type} (p : α → Bool) (l : List α) :
    (l.findIdxs p).filterMap (l[·]?) = l.filter p := by
  induction l with
  | nil => rfl
  | cons a rest ih =>
      rw [List.findIdxs_cons, List.findIdxs_start, List.filter_cons, ← ih]
      split <;> simp [List.filterMap_map]

/-- The body of a block is made of the statements whose context names it. -/
theorem Consistent.body_eq_filter (h : o.Consistent) {i : Nat} {b : Block} (hb : o.blocks[i]? = some b) :
    o.body b = o.statements.filter (·.context.body? = some i) := by
  have hplaced : o.placedIn i = o.statements.findIdxs (·.context.body? = some i) := List.findIdxs_map
  rw [body, h.body_eq i b hb, hplaced, filterMap_findIdxs]

theorem Consistent.context_of_mem_body (h : o.Consistent) {i : Nat} {b : Block} (hb : o.blocks[i]? = some b)
    {s : Statement} (hs : s ∈ o.body b) : s.context = b.kind.context i := by
  rw [h.body_eq_filter hb, List.mem_filter, decide_eq_true_eq] at hs
  obtain ⟨kind, hk, hc⟩ := h.context_eq s.context (List.mem_map_of_mem hs.1) i hs.2
  rw [kinds, List.getElem?_map, hb] at hk
  obtain rfl := Option.some.inj hk
  exact hc

end Outline
end SchemaDiagram
