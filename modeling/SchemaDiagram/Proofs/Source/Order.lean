import Mathlib.Data.List.ReduceOption
import SchemaDiagram.Proofs.Source.Place

/-! # Order in a text

The pass meets the events of a text from the front to the back, and appends what it finds. So statements are listed
in the order in which they stand in the text, and blocks in the order of their headers, even where a header cuts
the blocks in front of it short.
-/
namespace SchemaDiagram

/-! ## Events -/

namespace Event

/-- The events stand one behind the other, from byte `start` on. -/
def Tile : Nat → List Event → Prop
  | _, [] => True
  | start, e :: more => e.start = start ∧ Tile e.stop more

theorem tile_ofGlyphs (start : Nat) (gs : List Glyph) : Tile start (ofGlyphs start gs) := by
  induction gs generalizing start with
  | nil => trivial
  | cons g gs ih =>
      cases g with
      | openBrace => exact ⟨rfl, ih (start + 1)⟩
      | closeBrace => exact ⟨rfl, ih (start + 1)⟩
      | plain c =>
          have hrest := ih (start + c.utf8Size)
          rw [ofGlyphs]
          split
          · next first content more heq =>
              rw [heq] at hrest
              obtain ⟨rfl, hmore⟩ := hrest
              have hstop : stop (text (start + c.utf8Size) content) = stop (text start (c :: content)) :=
                Nat.add_assoc start _ _
              exact ⟨rfl, hstop ▸ hmore⟩
          · exact ⟨rfl, hrest⟩

theorem Tile.pairwise {start : Nat} {es : List Event} (h : Tile start es) :
    (∀ e ∈ es, start ≤ e.start) ∧ es.Pairwise fun e e' => e.stop ≤ e'.start := by
  induction es generalizing start with
  | nil => exact ⟨nofun, .nil⟩
  | cons e es ih =>
      obtain ⟨rfl, hmore⟩ := h
      obtain ⟨hstart, hpairwise⟩ := ih hmore
      refine ⟨List.forall_mem_cons.mpr ⟨Nat.le_refl _, fun e' he' => ?_⟩, .cons hstart hpairwise⟩
      exact Nat.le_trans (Nat.le_add_right _ _) (hstart e' he')

end Event

theorem Text.length_takeBytes_mono (t : Text) {m n : Nat} (h : m ≤ n) :
    (t.takeBytes m).length ≤ (t.takeBytes n).length := by
  induction t generalizing m n with
  | nil => exact Nat.le_refl _
  | cons c t ih =>
      by_cases hm : m = 0
      · simp [takeBytes, hm]
      · rw [takeBytes, takeBytes, if_neg hm, if_neg (by omega)]
        exact Nat.succ_le_succ (ih (Nat.sub_le_sub_right h _))

theorem Line.column_mono (l : Line) {m n : Nat} (h : m ≤ n) : l.column m ≤ l.column n :=
  Nat.succ_le_succ (l.code.length_takeBytes_mono h)

/-! ## Statements -/

/-- The first place ends in front of the second one. -/
def Place.Precedes (p q : Place) : Prop := p.line < q.line ∨ p.line = q.line ∧ p.endColumn ≤ q.column

/-- The first line of one statement ends in front of the other statement. -/
def Statement.Precedes (s s' : Statement) : Prop := s.place.Precedes s'.place

instance (s s' : Statement) : Decidable (s.Precedes s') := inferInstanceAs (Decidable (_ ∨ _))

/-- The place of the statement that a step may add. -/
def Step.place? : Step → Option Place
  | .event l (.text start content) => some (l.placeOf start content)
  | _ => none

theorem Line.placeOf_precedes (l : Line) {start start' : Nat} {content content' : Text}
    (h : start + content.bytes ≤ start') : (l.placeOf start content).Precedes (l.placeOf start' content') := by
  obtain ⟨front, back, hcontent, hbytes⟩ := Text.exists_trim_eq content
  have hsize := congrArg Text.bytes hcontent
  rw [Text.bytes_append, Text.bytes_append] at hsize
  refine .inr ⟨rfl, l.column_mono ?_⟩
  omega

theorem Line.pairwise_places (l : Line) : (l.steps.filterMap Step.place?).Pairwise Place.Precedes := by
  rw [steps, List.filterMap_cons_none rfl, List.filterMap_map, List.pairwise_filterMap]
  refine (Event.tile_ofGlyphs 0 l.glyphs).pairwise.2.imp fun {e e'} hle p hp p' hp' => ?_
  cases e with
  | text start content =>
      cases e' with
      | text start' content' =>
          cases hp
          cases hp'
          exact l.placeOf_precedes hle
      | _ => cases hp'
  | _ => cases hp

theorem pairwise_number_scanLines (s : ScanState) (number : Nat) (raws : List Text) :
    (scanLines s number raws).Pairwise fun l l' => l.number < l'.number := by
  induction raws generalizing s number with
  | nil => exact .nil
  | cons raw raws ih =>
      rw [scanLines_cons]
      exact .cons (fun l hl => (number_of_mem_scanLines hl).1) (ih _ _)

theorem Line.line_of_mem_places {l : Line} {p : Place} (h : p ∈ l.steps.filterMap Step.place?) :
    p.line = l.number := by
  obtain ⟨s, hs, hp⟩ := List.mem_filterMap.mp h
  rcases List.mem_cons.mp hs with rfl | hs
  · cases hp
  · obtain ⟨e, -, rfl⟩ := List.mem_map.mp hs
    cases e with
    | text => cases hp; rfl
    | _ => cases hp

theorem Text.pairwise_places (t : Text) : (t.steps.filterMap Step.place?).Pairwise Place.Precedes := by
  rw [steps, List.filterMap_flatMap, List.pairwise_flatMap]
  refine ⟨fun l _ => l.pairwise_places, (pairwise_number_scanLines _ _ _).imp fun hlt p hp q hq => .inl ?_⟩
  rwa [Line.line_of_mem_places hp, Line.line_of_mem_places hq]

namespace Outline

theorem places_after_sublist (steps : List Step) : (after steps).places.Sublist (steps.filterMap Step.place?) := by
  induction steps using List.reverseRecOn with
  | nil => exact List.nil_sublist _
  | append_singleton steps s ih =>
      rw [after_concat, List.filterMap_append]
      rcases places_step (after steps) s with hkept | ⟨l, start, content, rfl, -, hadded⟩
      · rw [hkept]
        exact ih.trans (List.sublist_append_left _ _)
      · rw [hadded]
        exact ih.append (List.Sublist.refl _)

/-- Statements are listed in the order of the text. -/
theorem pairwise_statements (t : Text) : (Source.ofText t).outline.statements.Pairwise Statement.Precedes := by
  have hplaces : (Source.ofText t).outline.places.Pairwise Place.Precedes := by
    rw [outline_ofText]
    exact t.pairwise_places.sublist (places_after_sublist _)
  rwa [places, List.pairwise_map] at hplaces

/-! ## Headers -/

variable {o : Outline}

/-- The headers of the blocks, and the statement that a brace would have as its header. -/
def awaited (o : Outline) : List Nat := o.headers.reduceOption ++ o.pending.toList

/-- Every block has a header behind those of the blocks in front of it. -/
structure InOrder (o : Outline) : Prop where
  sorted : o.awaited.Pairwise (· < ·)
  lt : ∀ h ∈ o.awaited, h < o.statements.length

theorem InOrder.of_sublist {o' : Outline} (h : o.InOrder) (hsub : o'.awaited.Sublist o.awaited)
    (hlength : o'.statements.length = o.statements.length) : o'.InOrder :=
  ⟨h.sorted.sublist hsub, fun i hi => hlength ▸ h.lt i (hsub.subset hi)⟩

theorem InOrder.addStatement (h : o.InOrder) (s : Statement) : (o.addStatement s).InOrder := by
  have hawaited : (o.addStatement s).awaited = o.headers.reduceOption ++ [o.statements.length] := by
    rw [awaited, headers_addStatement]
    rfl
  have hlength : (o.addStatement s).statements.length = o.statements.length + 1 := List.length_append
  have hlt : ∀ i ∈ o.headers.reduceOption, i < o.statements.length := fun i hi => h.lt i (List.mem_append_left _ hi)
  constructor
  · rw [hawaited, List.pairwise_append]
    exact ⟨(List.pairwise_append.mp h.sorted).1, List.pairwise_singleton _ _,
      fun i hi j hj => List.mem_singleton.mp hj ▸ hlt i hi⟩
  · rw [hawaited, hlength]
    intro i hi
    rcases List.mem_append.mp hi with hi | hi
    · exact Nat.lt_succ_of_lt (hlt i hi)
    · obtain rfl := List.mem_singleton.mp hi
      exact Nat.lt_succ_self _

/-- A brace takes the statement that waits for it as the header of the new block. -/
theorem InOrder.push (h : o.InOrder) (kind : BlockKind) (line column : Nat) :
    (o.push kind o.pending line column).InOrder := by
  have hawaited : (o.push kind o.pending line column).awaited = o.awaited := by
    rw [awaited, headers_push, List.reduceOption_append, List.reduceOption_singleton, awaited]
    exact List.append_nil _
  refine h.of_sublist (hawaited ▸ List.Sublist.refl _) ?_
  cases o.pending with
  | none => rfl
  | some p => exact List.length_modify _ _ _

theorem InOrder.cutShortAt (h : o.InOrder) (header : Nat) : (o.cutShortAt header).InOrder := by
  have hawaited : (o.cutShortAt header).awaited = o.awaited := by
    rw [awaited, headers_cutShortAt]
    rfl
  exact h.of_sublist (hawaited ▸ List.Sublist.refl _) (List.length_modify _ _ _)

theorem InOrder.openBrace (h : o.InOrder) (line column : Nat) : (o.openBrace line column).InOrder := by
  rcases openBrace_cases o line column with ⟨header, hp, -, hopen⟩ | ⟨kind, -, hopen⟩
  · have hpending : (o.cutShortAt header).pending = some header := hp
    rw [hopen, ← hpending]
    exact (h.cutShortAt header).push .table line column
  · rw [hopen]
    exact h.push kind line column

theorem InOrder.step (h : o.InOrder) (s : Step) : (o.step s).InOrder := by
  rcases step_cases o s with ⟨continuing, hs⟩ | ⟨content, hs⟩ | ⟨added, -, -, hs⟩ | ⟨line, column, hs⟩ |
    ⟨line, column, hs⟩
  · rw [hs]
    exact ⟨h.sorted, h.lt⟩
  · rw [hs]
    exact h.of_sublist (List.Sublist.refl _) (List.length_modify _ _ _)
  · rw [hs]
    exact h.addStatement added
  · rw [hs]
    exact h.openBrace line column
  · rw [hs]
    obtain ⟨hstatements, -, hheaders, hpending, -⟩ := closeBrace_frame o line column
    refine h.of_sublist ?_ (congrArg List.length hstatements)
    rw [awaited, hheaders, hpending]
    exact List.Sublist.append_left (List.nil_sublist _) _

theorem inOrder_ofText (t : Text) : (Source.ofText t).outline.InOrder := by
  rw [outline_ofText]
  exact after_induction ⟨.nil, nofun⟩ (fun _ s h => h.step s) _

/-- Blocks are listed in the order of their headers in the text. -/
theorem pairwise_headers (t : Text) :
    (Source.ofText t).outline.blocks.Pairwise fun b b' => ∀ s s', (Source.ofText t).outline.header? b = some s →
      (Source.ofText t).outline.header? b' = some s' → s.Precedes s' := by
  have hsorted := (List.pairwise_append.mp (inOrder_ofText t).sorted).1
  rw [headers, List.reduceOption, List.filterMap_map, List.pairwise_filterMap] at hsorted
  refine hsorted.imp fun {b b'} hlt s s' hs hs' => ?_
  obtain ⟨i, hi, hsi⟩ := Option.bind_eq_some_iff.mp hs
  obtain ⟨j, hj, hsj⟩ := Option.bind_eq_some_iff.mp hs'
  obtain ⟨hi', rfl⟩ := List.getElem?_eq_some_iff.mp hsi
  obtain ⟨hj', rfl⟩ := List.getElem?_eq_some_iff.mp hsj
  exact List.pairwise_iff_getElem.mp (pairwise_statements t) i j hi' hj' (hlt i hi j hj)

end Outline
end SchemaDiagram
