import SchemaDiagram.Proofs.Source.Scan
import SchemaDiagram.Proofs.Source.Skeleton
import SchemaDiagram.Proofs.Text.Cut

/-! # A brace in a text

The brace at some line and column is one step of the pass, and the steps in front of it and behind it come from
the text in front of it and behind it. Without a closing brace, and with a line feed in its place, the text has
steps with the same skeletons.
-/
namespace SchemaDiagram

/-! ## Events of a line -/

namespace Event

theorem ofGlyphs_append_brace (start : Nat) (ga gb : List Glyph) (k : Brace) :
    ofGlyphs start (ga ++ k.glyph :: gb) = ofGlyphs start ga ++
      k.event (start + Text.bytes (ga.map Glyph.char)) ::
        ofGlyphs (start + Text.bytes (ga.map Glyph.char) + 1) gb := by
  induction ga generalizing start with
  | nil => cases k <;> rfl
  | cons g ga ih =>
      rw [List.cons_append, List.map_cons, Text.bytes_cons, ← Nat.add_assoc]
      cases g with
      | openBrace => exact congrArg (openBrace start :: ·) (ih (start + 1))
      | closeBrace => exact congrArg (closeBrace start :: ·) (ih (start + 1))
      | plain c =>
          rw [ofGlyphs, ih, ofGlyphs, Glyph.char]
          cases ofGlyphs (start + c.utf8Size) ga with
          | nil => cases k <;> rfl
          | cons e events => cases e <;> rfl

theorem ofGlyphs_brace (start : Nat) (k : Brace) (gs : List Glyph) :
    ofGlyphs start (k.glyph :: gs) = k.event start :: ofGlyphs (start + 1) gs := by
  cases k <;> rfl

/-- A character in front lengthens the first run of text, or is one of its own. -/
theorem ofGlyphs_plain_cases (start : Nat) (c : Char) (gs : List Glyph) :
    ∃ content more, ofGlyphs start (.plain c :: gs) = text start content :: more ∧
      ∀ e ∈ more, e ∈ ofGlyphs (start + c.utf8Size) gs := by
  rw [ofGlyphs]
  cases ofGlyphs (start + c.utf8Size) gs with
  | nil => exact ⟨[c], [], rfl, fun e he => absurd he List.not_mem_nil⟩
  | cons e events =>
      cases e with
      | text first content => exact ⟨c :: content, events, rfl, fun _ he => List.mem_cons_of_mem _ he⟩
      | openBrace first => exact ⟨[c], _, rfl, fun _ he => he⟩
      | closeBrace first => exact ⟨[c], _, rfl, fun _ he => he⟩

/-- An event starts with the first character and stands for one at least, or it comes from the rest. -/
theorem mem_ofGlyphs_cons {start : Nat} {g : Glyph} {gs : List Glyph} {e : Event} (h : e ∈ ofGlyphs start (g :: gs)) :
    e.start = start ∧ e.content ≠ [] ∨ e ∈ ofGlyphs (start + g.char.utf8Size) gs := by
  cases g with
  | openBrace =>
      rcases List.mem_cons.mp h with rfl | h
      · exact .inl ⟨rfl, List.cons_ne_nil _ _⟩
      · exact .inr h
  | closeBrace =>
      rcases List.mem_cons.mp h with rfl | h
      · exact .inl ⟨rfl, List.cons_ne_nil _ _⟩
      · exact .inr h
  | plain c =>
      rw [ofGlyphs] at h
      split at h
      · next heq =>
          rcases List.mem_cons.mp h with rfl | h
          · exact .inl ⟨rfl, List.cons_ne_nil _ _⟩
          · exact .inr (heq ▸ List.mem_cons_of_mem _ h)
      · rcases List.mem_cons.mp h with rfl | h
        · exact .inl ⟨rfl, List.cons_ne_nil _ _⟩
        · exact .inr h

theorem start_of_mem_ofGlyphs {start : Nat} {gs : List Glyph} {e : Event} (h : e ∈ ofGlyphs start gs) :
    start ≤ e.start ∧ e.start < start + Text.bytes (gs.map Glyph.char) := by
  induction gs generalizing start with
  | nil => cases h
  | cons g gs ih =>
      have hpos : 0 < g.char.utf8Size := g.char.utf8Size_pos
      rw [List.map_cons, Text.bytes_cons]
      rcases mem_ofGlyphs_cons h with ⟨hstart, -⟩ | hrest
      · omega
      · have hbounds := ih hrest
        omega

theorem exists_of_brace_mem {start n : Nat} {gs : List Glyph} {k : Brace} (h : k.event n ∈ ofGlyphs start gs) :
    ∃ ga gb, gs = ga ++ k.glyph :: gb ∧ n = start + Text.bytes (ga.map Glyph.char) := by
  induction gs generalizing start with
  | nil => cases h
  | cons g gs ih =>
      have hrest : k.event n ∈ ofGlyphs (start + g.char.utf8Size) gs →
          ∃ ga gb, g :: gs = ga ++ k.glyph :: gb ∧ n = start + Text.bytes (ga.map Glyph.char) := by
        intro hmem
        obtain ⟨ga, gb, rfl, rfl⟩ := ih hmem
        exact ⟨g :: ga, gb, rfl, Nat.add_assoc _ _ _⟩
      cases g with
      | openBrace =>
          rcases List.mem_cons.mp h with h | h
          · cases k <;> cases h
            exact ⟨[], gs, rfl, rfl⟩
          · exact hrest h
      | closeBrace =>
          rcases List.mem_cons.mp h with h | h
          · cases k <;> cases h
            exact ⟨[], gs, rfl, rfl⟩
          · exact hrest h
      | plain c =>
          obtain ⟨content, more, heq, hmore⟩ := ofGlyphs_plain_cases start c gs
          rw [heq] at h
          rcases List.mem_cons.mp h with h | h
          · cases k <;> cases h
          · exact hrest (hmore _ h)

theorem ofGlyphs_ne_nil (start : Nat) {gs : List Glyph} (h : gs ≠ []) : ofGlyphs start gs ≠ [] := by
  intro hnil
  have hcode := flatMap_content_ofGlyphs start gs
  rw [hnil, List.flatMap_nil] at hcode
  exact h (List.map_eq_nil_iff.mp hcode.symm)

def shift (offset : Nat) : Event → Event
  | text start content => text (offset + start) content
  | openBrace start => openBrace (offset + start)
  | closeBrace start => closeBrace (offset + start)

theorem ofGlyphs_shift (offset start : Nat) (gs : List Glyph) :
    ofGlyphs (offset + start) gs = (ofGlyphs start gs).map (shift offset) := by
  induction gs generalizing start with
  | nil => rfl
  | cons g gs ih =>
      cases g with
      | openBrace => exact congrArg (openBrace (offset + start) :: ·) (ih (start + 1))
      | closeBrace => exact congrArg (closeBrace (offset + start) :: ·) (ih (start + 1))
      | plain c =>
          rw [ofGlyphs, ofGlyphs, Nat.add_assoc, ih]
          cases ofGlyphs (start + c.utf8Size) gs with
          | nil => rfl
          | cons e events => cases e <;> rfl

theorem map_skeleton_ofGlyphs (start : Nat) (gs : List Glyph) :
    (ofGlyphs start gs).map skeleton = (ofGlyphs 0 gs).map skeleton := by
  have hshift : ∀ e : Event, (e.shift start).skeleton = e.skeleton := by
    intro e
    cases e <;> rfl
  rw [← Nat.add_zero start, ofGlyphs_shift, List.map_map]
  exact List.map_congr_left fun e _ => hshift e

/-- One more character lengthens the last run of text, or is one of its own. -/
theorem ofGlyphs_concat_plain (start : Nat) (gs : List Glyph) (c : Char) :
    (∃ init first content, ofGlyphs start gs = init ++ [text first content] ∧
      ofGlyphs start (gs ++ [.plain c]) = init ++ [text first (content ++ [c])]) ∨
    ∃ first, ofGlyphs start (gs ++ [.plain c]) = ofGlyphs start gs ++ [text first [c]] := by
  induction gs generalizing start with
  | nil => exact .inr ⟨start, rfl⟩
  | cons g gs ih =>
      cases g with
      | openBrace =>
          rcases ih (start + 1) with ⟨init, first, content, h, h'⟩ | ⟨first, h'⟩
          · exact .inl ⟨openBrace start :: init, first, content, congrArg (_ :: ·) h, congrArg (_ :: ·) h'⟩
          · exact .inr ⟨first, congrArg (_ :: ·) h'⟩
      | closeBrace =>
          rcases ih (start + 1) with ⟨init, first, content, h, h'⟩ | ⟨first, h'⟩
          · exact .inl ⟨closeBrace start :: init, first, content, congrArg (_ :: ·) h, congrArg (_ :: ·) h'⟩
          · exact .inr ⟨first, congrArg (_ :: ·) h'⟩
      | plain d =>
          rw [List.cons_append, ofGlyphs, ofGlyphs]
          rcases ih (start + d.utf8Size) with ⟨init, first, content, h, h'⟩ | ⟨first, h'⟩
          · rw [h, h']
            cases init with
            | nil => exact .inl ⟨[], start, d :: content, rfl, rfl⟩
            | cons e init =>
                cases e with
                | text n t => exact .inl ⟨text start (d :: t) :: init, first, content, rfl, rfl⟩
                | openBrace n => exact .inl ⟨text start [d] :: openBrace n :: init, first, content, rfl, rfl⟩
                | closeBrace n => exact .inl ⟨text start [d] :: closeBrace n :: init, first, content, rfl, rfl⟩
          · rw [h']
            cases ofGlyphs (start + d.utf8Size) gs with
            | nil => exact .inl ⟨[], start, [d], rfl, rfl⟩
            | cons e events => exact .inr ⟨first, by cases e <;> rfl⟩

end Event
/-! ## Lines of code -/

/-- The state in front of the line that follows some lines. -/
def ScanState.behind (s : ScanState) (raws : List Text) : ScanState :=
  raws.foldl (fun s raw => (scanChars s (dropReturn raw)).2.endLine) s

theorem ScanState.startsLine_behind (raws : List Text) : (code.behind raws).StartsLine := by
  cases raws using List.reverseRecOn with
  | nil => rfl
  | append_singleton raws raw =>
      rw [behind, List.foldl_append]
      exact startsLine_endLine _

theorem scanLines_cons (s : ScanState) (number : Nat) (raw : Text) (rest : List Text) :
    scanLines s number (raw :: rest) =
      ⟨number, s = .tripleQuoted, (scanChars s (dropReturn raw)).1⟩ ::
        scanLines (scanChars s (dropReturn raw)).2.endLine (number + 1) rest := rfl

theorem scanLines_append (s : ScanState) (number : Nat) (raws more : List Text) :
    scanLines s number (raws ++ more) =
      scanLines s number raws ++ scanLines (s.behind raws) (number + raws.length) more := by
  induction raws generalizing s number with
  | nil => rfl
  | cons raw raws ih =>
      rw [List.cons_append, scanLines_cons, scanLines_cons, ih, List.length_cons, Nat.add_right_comm]
      rfl

theorem number_of_mem_scanLines {s : ScanState} {number : Nat} {raws : List Text} {l : Line}
    (h : l ∈ scanLines s number raws) : number ≤ l.number ∧ l.number < number + raws.length := by
  induction raws generalizing s number with
  | nil => cases h
  | cons raw raws ih =>
      rw [scanLines_cons] at h
      rw [List.length_cons]
      rcases List.mem_cons.mp h with rfl | h
      · exact ⟨Nat.le_refl _, Nat.lt_add_of_pos_right (Nat.succ_pos _)⟩
      · have hbounds := ih h
        omega

theorem Step.mem_flatMap_steps {lines : List Line} {l : Line} {e : Event} :
    event l e ∈ lines.flatMap Line.steps ↔ l ∈ lines ∧ e ∈ l.events := by
  simp only [List.mem_flatMap, Line.steps, List.mem_cons, reduceCtorEq, List.mem_map, event.injEq, false_or]
  constructor
  · rintro ⟨l', hl, e', he, rfl, rfl⟩
    exact ⟨hl, he⟩
  · rintro ⟨hl, he⟩
    exact ⟨l, hl, e, he, rfl, rfl⟩

theorem Step.map_skeleton_events (l l' : Line) {es es' : List Event}
    (h : es.map Event.skeleton = es'.map Event.skeleton) :
    (es.map (event l)).map skeleton = (es'.map (event l')).map skeleton := by
  have hmap : ∀ (l : Line) (es : List Event),
      (es.map (event l)).map skeleton = (es.map Event.skeleton).map (event ⟨0, false, []⟩) := by
    intro l es
    rw [List.map_map, List.map_map]
    rfl
  rw [hmap, hmap, h]

theorem map_skeleton_scanLines (s : ScanState) (number number' : Nat) (raws : List Text) :
    ((scanLines s number raws).flatMap Line.steps).map Step.skeleton =
      ((scanLines s number' raws).flatMap Line.steps).map Step.skeleton := by
  induction raws generalizing s number number' with
  | nil => rfl
  | cons raw raws ih =>
      rw [scanLines_cons, scanLines_cons, List.flatMap_cons, List.flatMap_cons, List.map_append, List.map_append,
        ih _ (number + 1) (number' + 1)]
      congr 1
      exact congrArg (_ :: ·) (Step.map_skeleton_events _ _ rfl)

/-! ## The place of a brace -/

theorem Line.column_bytes {l : Line} {ga gb : List Glyph} (h : l.glyphs = ga ++ gb) :
    l.column (Text.bytes (ga.map Glyph.char)) = ga.length + 1 := by
  rw [column, code, h, List.map_append, Text.takeBytes_bytes_append, List.length_map]

theorem dropReturn_append {b : Text} (hb : b ≠ []) (a : Text) : dropReturn (a ++ b) = a ++ dropReturn b := by
  obtain ⟨init, d, rfl⟩ := List.eq_nil_or_concat' b |>.resolve_left hb
  rw [dropReturn, dropReturn, ← List.append_assoc, List.getLast?_concat, List.getLast?_concat]
  split
  · rw [List.dropLast_concat, List.dropLast_concat]
  · rw [List.append_assoc]

theorem dropReturn_cons {c : Char} (hc : c ≠ '\r') (b : Text) : dropReturn (c :: b) = c :: dropReturn b := by
  cases b with
  | nil =>
      rw [dropReturn]
      split
      · next h => exact absurd (Option.some.inj h) hc
      · rfl
  | cons d b => exact dropReturn_append (List.cons_ne_nil d b) [c]

/-- A line is found by its number. -/
theorem eq_of_mem_scanLines {before after : List Text} {raw : Text} {l : Line}
    (h : l ∈ scanLines .code 1 (before ++ raw :: after)) (hnumber : l.number = before.length + 1) :
    l = ⟨before.length + 1, ScanState.code.behind before = .tripleQuoted,
      (scanChars (ScanState.code.behind before) (dropReturn raw)).1⟩ := by
  rw [scanLines_append, scanLines_cons, Nat.add_comm 1] at h
  rcases List.mem_append.mp h with h | h
  · have hbounds := number_of_mem_scanLines h
    omega
  · rcases List.mem_cons.mp h with h | h
    · exact h
    · have hbounds := number_of_mem_scanLines h
      omega

/-- Numbers tell lines apart and starts tell the events of a line apart, so a brace is one step only. -/
theorem eq_of_flatMap_steps {front back : List Line} {l : Line} {ga gb : List Glyph} {done todo : List Step}
    {k : Brace} (hfront : ∀ l' ∈ front, l'.number < l.number) (hback : ∀ l' ∈ back, l.number < l'.number)
    (hglyphs : l.glyphs = ga ++ k.glyph :: gb) {start : Nat} (hstart : start = Text.bytes (ga.map Glyph.char))
    (hsteps : (front ++ l :: back).flatMap Line.steps = done ++ .event l (k.event start) :: todo) :
    done = front.flatMap Line.steps ++ .newLine l :: (Event.ofGlyphs 0 ga).map (.event l) ∧
    todo = (Event.ofGlyphs (start + 1) gb).map (.event l) ++ back.flatMap Line.steps := by
  have hevent : ∀ es : List Event, Step.event l (k.event start) ∈ es.map (.event l) → k.event start ∈ es := by
    intro es h
    obtain ⟨e, he, heq⟩ := List.mem_map.mp h
    cases heq
    exact he
  have hdone : Step.event l (k.event start) ∉
      front.flatMap Line.steps ++ .newLine l :: (Event.ofGlyphs 0 ga).map (.event l) := by
    intro h
    rcases List.mem_append.mp h with h | h
    · exact Nat.lt_irrefl _ (hfront l (Step.mem_flatMap_steps.mp h).1)
    · rcases List.mem_cons.mp h with h | h
      · cases h
      · have hbounds := Event.start_of_mem_ofGlyphs (hevent _ h)
        rw [Brace.start_event] at hbounds
        omega
  have htodo : Step.event l (k.event start) ∉
      (Event.ofGlyphs (start + 1) gb).map (.event l) ++ back.flatMap Line.steps := by
    intro h
    rcases List.mem_append.mp h with h | h
    · have hbounds := Event.start_of_mem_ofGlyphs (hevent _ h)
      rw [Brace.start_event] at hbounds
      omega
    · exact Nat.lt_irrefl _ (hback l (Step.mem_flatMap_steps.mp h).1)
  rw [List.flatMap_append, List.flatMap_cons, Line.steps, Line.events, hglyphs, Event.ofGlyphs_append_brace,
    Nat.zero_add, ← hstart, List.map_append, List.map_cons, ← List.cons_append, List.append_assoc,
    ← List.append_assoc, List.cons_append] at hsteps
  obtain ⟨hd, -, ht⟩ := (List.append_cons_inj_of_notMem hdone htodo).mp hsteps
  exact ⟨hd.symm, ht.symm⟩

/-- The steps in front of a brace and behind it are those of what is in front of it and behind it. -/
theorem steps_at_brace {before after : List Text} {a b : Text} {done todo : List Step} {l : Line} {start : Nat}
    {k : Brace} (hsteps : (scanLines .code 1 (before ++ (a ++ k.char :: b) :: after)).flatMap Line.steps =
      done ++ .event l (k.event start) :: todo)
    (hnumber : l.number = before.length + 1) (hcolumn : l.column start = a.length + 1) :
    ∃ ga gb e, ga.length = a.length ∧ Scans (ScanState.code.behind before) a ga .code ∧
      Scans .code (dropReturn b) gb e ∧ Scans (ScanState.code.behind before) (a ++ [k.char]) (ga ++ [k.glyph]) .code ∧
      l.continuesString = decide (ScanState.code.behind before = .tripleQuoted) ∧
      done = (scanLines .code 1 before).flatMap Line.steps ++ .newLine l :: (Event.ofGlyphs 0 ga).map (.event l) ∧
      todo = (Event.ofGlyphs (start + 1) gb).map (.event l) ++
        (scanLines e.endLine (before.length + 2) after).flatMap Line.steps := by
  have hmem : Step.event l (k.event start) ∈ done ++ .event l (k.event start) :: todo := by simp
  rw [← hsteps, Step.mem_flatMap_steps] at hmem
  have hl := eq_of_mem_scanLines hmem.1 hnumber
  obtain ⟨ga, gb, hglyphs, hstart⟩ := Event.exists_of_brace_mem hmem.2
  rw [Nat.zero_add] at hstart
  rw [hstart, Line.column_bytes hglyphs, Nat.add_right_cancel_iff] at hcolumn
  rw [scanLines_append, scanLines_cons, Nat.add_comm 1, ← hl] at hsteps
  have hfront : ∀ l' ∈ scanLines .code 1 before, l'.number < l.number := by
    intro l' hl'
    have hbounds := number_of_mem_scanLines hl'
    omega
  have hback : ∀ {s} {l'}, l' ∈ scanLines s (before.length + 2) after → l.number < l'.number := by
    intro s l' hl'
    have hbounds := number_of_mem_scanLines hl'
    omega
  obtain ⟨hdone, htodo⟩ := eq_of_flatMap_steps hfront (fun _ => hback) hglyphs hstart hsteps
  rw [dropReturn_append (List.cons_ne_nil _ _), dropReturn_cons k.char_ne_return] at hl htodo
  have hscan := scans_scanChars (ScanState.code.behind before) (a ++ k.char :: dropReturn b)
  generalize scanChars (ScanState.code.behind before) (a ++ k.char :: dropReturn b) = result at hl htodo hscan
  obtain ⟨a', b', htext, hlen, ha, hb, hmore⟩ := hscan.split ((congrArg Line.glyphs hl).symm.trans hglyphs)
  obtain ⟨rfl, hb'⟩ := List.append_inj htext (hcolumn.symm.trans hlen)
  obtain rfl := (List.cons.inj hb').2
  exact ⟨ga, gb, _, hcolumn, ha, hb, hmore .done, congrArg Line.continuesString hl, hdone, htodo⟩

/-! ## A line feed in its place -/

theorem dropReturn_eq (raw : Text) : dropReturn raw = raw ∨ raw = dropReturn raw ++ ['\r'] := by
  rw [dropReturn]
  split
  · next h =>
      obtain ⟨init, rfl⟩ := List.getLast?_eq_some_iff.mp h
      rw [List.dropLast_concat]
      exact .inr rfl
  · exact .inl rfl

theorem Scans.exists_dropReturn {s : ScanState} {a : Text} {ga : List Glyph} (h : Scans s a ga .code)
    (hs : s.StartsLine) (hlen : ga.length = a.length) :
    ∃ g, Scans s (dropReturn a) g .code ∧ (ga = g ∨ ga = g ++ [.plain '\r']) := by
  have hquoted : s ≠ .quoted '\r' := by
    rintro rfl
    cases hs
  rcases dropReturn_eq a with hdrop | hdrop
  · rw [hdrop]
    exact ⟨ga, h, .inl rfl⟩
  · obtain ⟨g, hg, hscan⟩ := h.withoutReturn rfl hquoted hlen hdrop
    exact ⟨g, hscan, .inr hg⟩

/-- Nothing of a triple-quoted string is left where the reader is back in code. -/
theorem Scans.ne_tripleQuoted {s : ScanState} {t : Text} (h : Scans s t [] .code) : s ≠ .tripleQuoted := by
  cases h <;> exact nofun

namespace Outline

variable {o : Outline}

theorem continuing_addEvents (l : Line) {es : List Event} (h : es ≠ [] ∨ o.continuing = false) :
    (es.foldl (addEvent l) o).continuing = false := by
  cases es using List.reverseRecOn with
  | nil => exact h.resolve_left (· rfl)
  | append_singleton es e =>
      rw [List.foldl_append]
      exact continuing_addEvent l _ e

theorem after_append_line (steps : List Step) (l : Line) (es : List Event) :
    after (steps ++ .newLine l :: es.map (.event l)) =
      es.foldl (addEvent l) { after steps with continuing := l.continuesString } := by
  rw [after_append, List.foldl_cons, List.foldl_map]
  rfl

/-- A blank at the end of a line changes nothing unless a string goes on there. -/
theorem skeleton_addEvents_concat {c : Char} (hc : Text.isBlank c = true) (l : Line) (start : Nat) (gs : List Glyph)
    (h : o.Covered) (hcontinuing : ((Event.ofGlyphs start gs).foldl (addEvent l) o).continuing = false) :
    ((Event.ofGlyphs start (gs ++ [.plain c])).foldl (addEvent l) o).skeleton =
      ((Event.ofGlyphs start gs).foldl (addEvent l) o).skeleton := by
  rcases Event.ofGlyphs_concat_plain start gs c with ⟨init, first, content, hgs, hmore⟩ | ⟨first, hmore⟩
  · have htrim : (Event.text first (content ++ [c])).skeleton = (Event.text first content).skeleton := by
      simp only [Event.skeleton, Text.trimEnd_concat_blank hc]
    have hevents : (init ++ [Event.text first (content ++ [c])]).map Event.skeleton =
        (init ++ [Event.text first content]).map Event.skeleton := by
      rw [List.map_append, List.map_append, List.map_singleton, List.map_singleton, htrim]
    have hfoldl := skeleton_foldl h h rfl (Step.map_skeleton_events l l hevents)
    rw [List.foldl_map, List.foldl_map] at hfoldl
    rw [hgs, hmore]
    exact hfoldl
  · rw [hmore, List.foldl_append, List.foldl_cons, List.foldl_nil]
    generalize (Event.ofGlyphs start gs).foldl (addEvent l) o = o' at hcontinuing
    simp only [addEvent, hcontinuing, Bool.false_and, Bool.false_eq_true, ↓reduceIte]
    have hblank : Text.trim [c] = [] := by simp [Text.trim, Text.trimStart, Text.trimEnd, hc]
    rcases addText_cases o' l first [c] with ⟨-, hadd⟩ | ⟨hne, -⟩
    · rw [hadd, ← hcontinuing]
    · exact absurd hblank hne

theorem ledger_addEvents_concat (o : Outline) (l : Line) (start : Nat) (gs : List Glyph) (c : Char) :
    ((Event.ofGlyphs start (gs ++ [.plain c])).foldl (addEvent l) o).ledger =
      ((Event.ofGlyphs start gs).foldl (addEvent l) o).ledger := by
  have htext : ∀ (o' : Outline) (first : Nat) (content : Text),
      (addEvent l o' (.text first content)).ledger = o'.ledger :=
    fun o' first content => ledger_step o' (.event l (.text first content))
  rcases Event.ofGlyphs_concat_plain start gs c with ⟨init, first, content, hgs, hmore⟩ | ⟨first, hmore⟩
  · rw [hgs, hmore, List.foldl_append, List.foldl_append, List.foldl_cons, List.foldl_cons, List.foldl_nil,
      List.foldl_nil, htext, htext]
  · rw [hmore, List.foldl_append, List.foldl_cons, List.foldl_nil, htext]

/-- Where a line ends in code, no string goes on. -/
theorem continuing_after_line {s : ScanState} {t : Text} {gs : List Glyph} (h : Scans s t gs .code) {l : Line}
    (hl : l.continuesString = decide (s = .tripleQuoted)) (steps : List Step) :
    (after (steps ++ .newLine l :: (Event.ofGlyphs 0 gs).map (.event l))).continuing = false := by
  rw [after_append_line]
  refine continuing_addEvents l ?_
  by_cases hnil : gs = []
  · rw [hnil] at h
    exact .inr (hl.trans (decide_eq_false h.ne_tripleQuoted))
  · exact .inl (Event.ofGlyphs_ne_nil 0 hnil)

end Outline

/-- What a line has in front of a brace is read alike on a line of its own. -/
theorem Scans.alike_line {s : ScanState} {a : Text} {ga : List Glyph} (h : Scans s a ga .code) (hs : s.StartsLine)
    (hlen : ga.length = a.length) {l : Line} (hl : l.continuesString = decide (s = .tripleQuoted))
    (steps : List Step) :
    ∃ g, Scans s (dropReturn a) g .code ∧ ∀ l₁ : Line, l₁.continuesString = l.continuesString → l₁.glyphs = g →
      (Outline.after (steps ++ l₁.steps)).Alike
        (Outline.after (steps ++ .newLine l :: (Event.ofGlyphs 0 ga).map (.event l))) ∧
      (Outline.after (steps ++ l₁.steps)).continuing = false := by
  obtain ⟨g, hg, hga⟩ := h.exists_dropReturn hs hlen
  refine ⟨g, hg, ?_⟩
  rintro l₁ hl₁ rfl
  have hline : (Outline.after (steps ++ l₁.steps)).Alike
      (Outline.after (steps ++ .newLine l :: (Event.ofGlyphs 0 l₁.glyphs).map (.event l))) := by
    refine Outline.alike_after ?_
    rw [List.map_append, List.map_append, List.map_cons, Line.steps, List.map_cons, Step.skeleton, Step.skeleton,
      hl₁, Step.map_skeleton_events l₁ l rfl]
    rfl
  have hcontinuing := Outline.continuing_after_line hg hl steps
  refine ⟨?_, hline.continuing_eq.trans hcontinuing⟩
  rcases hga with rfl | rfl
  · exact hline
  · -- a carriage return is a blank behind the run of text, or a run of blanks
    rw [Outline.after_append_line] at hline hcontinuing ⊢
    have hcovered : ({ Outline.after steps with continuing := l.continuesString } : Outline).Covered :=
      Outline.covered_after steps
    exact hline.trans (Outline.Alike.of_ledger
      (Outline.skeleton_addEvents_concat (by decide) l 0 l₁.glyphs hcovered hcontinuing).symm
      (Outline.ledger_addEvents_concat _ l 0 l₁.glyphs '\r').symm)

/-- The steps around the end of a line that ends in code, where no string goes on. -/
theorem exists_steps_cons_cons {before : List Text} (after : List Text) {raw raw' : Text} {g g' : List Glyph}
    {e : ScanState} (h : Scans (ScanState.code.behind before) (dropReturn raw) g .code)
    (h' : Scans .code (dropReturn raw') g' e) :
    ∃ (l₁ l₂ : Line) (number : Nat),
      l₁.continuesString = decide (ScanState.code.behind before = .tripleQuoted) ∧ l₁.glyphs = g ∧
      l₂.continuesString = false ∧ l₂.glyphs = g' ∧
      (scanLines .code 1 (before ++ raw :: raw' :: after)).flatMap Line.steps =
        ((scanLines .code 1 before).flatMap Line.steps ++ l₁.steps) ++ .newLine l₂ ::
          (l₂.events.map (.event l₂) ++ (scanLines e.endLine number after).flatMap Line.steps) := by
  have hend : ScanState.code.endLine = .code := rfl
  rw [scanLines_append, scanLines_cons, scanLines_cons, h.eq_scanChars, hend, h'.eq_scanChars, List.flatMap_append,
    List.flatMap_cons, List.flatMap_cons]
  exact ⟨_, _, _, rfl, rfl, rfl, rfl, (List.append_assoc ..).symm⟩

/-- With a line feed in place of a closing brace, the pass comes to the new line as it came to the brace and
meets the same steps behind it. -/
theorem Text.steps_without_brace {pre post : Text} {done todo : List Step} {l : Line} {start : Nat}
    (hsteps : Text.steps (pre ++ '\x7d' :: post) = done ++ .event l (.closeBrace start) :: todo)
    (hnumber : l.number = pre.lines.length) (hcolumn : l.column start = pre.lastLine.length + 1) :
    ∃ done' l' todo', Text.steps (pre ++ '\n' :: post) = done' ++ .newLine l' :: todo' ∧
      l'.continuesString = false ∧ (Outline.after done').skeleton = (Outline.after done).skeleton ∧
      todo'.map Step.skeleton = todo.map Step.skeleton := by
  obtain ⟨before, hpre⟩ := pre.exists_lines_eq
  obtain ⟨b, after, hpost⟩ := List.exists_cons_of_ne_nil post.lines_ne_nil
  generalize pre.lastLine = a at hpre hcolumn
  rw [hpre, List.length_append, List.length_singleton] at hnumber
  have hbrace : Text.lines ('\x7d' :: post) = ('\x7d' :: b) :: after := by
    rw [lines, if_neg (by decide), hpost]
  have hfeed : Text.lines ('\n' :: post) = [] :: b :: after := by
    rw [lines, if_pos rfl, hpost]
  rw [steps, scan, lines_append hpre hbrace] at hsteps
  obtain ⟨ga, gb, e, hlen, ha, hb, -, hstring, hdone, htodo⟩ :=
    steps_at_brace (k := .closing) hsteps hnumber hcolumn
  obtain ⟨g, hg, halike⟩ := ha.alike_line (ScanState.startsLine_behind before) hlen hstring
    ((scanLines .code 1 before).flatMap Line.steps)
  obtain ⟨l₁, l₂, number, hl₁, rfl, hl₂, rfl, hfed⟩ := exists_steps_cons_cons after hg hb
  refine ⟨(scanLines .code 1 before).flatMap Line.steps ++ l₁.steps, l₂,
    l₂.events.map (.event l₂) ++ (scanLines e.endLine number after).flatMap Line.steps, ?_, hl₂, ?_, ?_⟩
  · rw [steps, scan, lines_append hpre hfeed, List.append_nil, hfed]
  · rw [hdone]
    exact (halike l₁ (hl₁.trans hstring.symm) rfl).1.skeleton_eq
  · rw [htodo, List.map_append, List.map_append, map_skeleton_scanLines _ number (before.length + 2)]
    exact congrArg (· ++ _) (Step.map_skeleton_events l₂ l (Event.map_skeleton_ofGlyphs (start + 1) l₂.glyphs).symm)

end SchemaDiagram
