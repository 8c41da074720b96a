import SchemaDiagram.Proofs.Check.Skeleton

/-! # Line feeds beside braces

A line feed in front of a brace or behind it moves text to another line and changes no run of text between braces, but
for blanks. No string goes on at the new line. So the pass meets the same runs and the same braces, and all it finds
is the same at other positions.
-/
namespace SchemaDiagram

/-! ## The text around a brace -/

/-- The brace at a line and a column is a character of the text. -/
theorem Text.exists_brace {text : Text} {l : Line} {k : Brace} {start : Nat} (hl : l ∈ scan text)
    (he : k.event start ∈ l.events) : ∃ pre post : Text, text = pre ++ k.char :: post ∧
      l.number = pre.lines.length ∧ l.column start = pre.lastLine.length + 1 := by
  obtain ⟨hnumber, raw, hraw, -⟩ := exists_raw_of_mem_scan hl
  obtain ⟨before, after, hlines, hlen⟩ : ∃ before after, text.lines = before ++ raw :: after ∧
      l.number = before.length + 1 := by
    obtain ⟨hlt, hget⟩ := List.getElem?_eq_some_iff.mp hraw
    refine ⟨text.lines.take (l.number - 1), text.lines.drop (l.number - 1 + 1), ?_, ?_⟩
    · rw [← hget, ← List.drop_eq_getElem_cons hlt, List.take_append_drop]
    · rw [List.length_take]
      omega
  rw [scan, hlines] at hl
  have hglyphs : l.glyphs = (scanChars (ScanState.code.behind before) (dropReturn raw)).1 :=
    congrArg Line.glyphs (eq_of_mem_scanLines hl hlen)
  obtain ⟨ga, gb, hcut, rfl⟩ := Event.exists_of_brace_mem he
  obtain ⟨a, b, htext, hlength, -⟩ :=
    (scans_scanChars (ScanState.code.behind before) (dropReturn raw)).split (hglyphs.symm.trans hcut)
  obtain ⟨b', hline⟩ : ∃ b', raw = a ++ k.char :: b' := by
    rcases dropReturn_eq raw with hdrop | hdrop
    · exact ⟨b, hdrop.symm.trans htext⟩
    · exact ⟨b ++ ['\r'], by rw [hdrop, htext, List.append_assoc]; rfl⟩
  rw [hline] at hlines
  obtain ⟨pre, post, rfl, hpre, -⟩ := exists_cut_of_lines hlines
  refine ⟨pre, post, rfl, ?_, ?_⟩
  · rw [hlen, hpre, List.length_append, List.length_singleton]
  · have hlast : pre.lastLine = a := by simp [lastLine, hpre]
    rw [Nat.zero_add, Line.column_bytes hcut, hlength, hlast]

/-! ## The pass with a line feed -/

/-- A new line where no string goes on is no step for the pass. -/
theorem Outline.alike_newLine {done done' todo todo' : List Step} {l : Line}
    (hdone : (after done').Alike (after done)) (hcontinuing : (after done').continuing = false)
    (hl : l.continuesString = false) (htodo : todo'.map Step.skeleton = todo.map Step.skeleton) :
    (after (done' ++ .newLine l :: todo')).Alike (after (done ++ todo)) := by
  have hstay : (after done').step (.newLine l) = after done' := by
    rw [step, hl, ← hcontinuing]
  rw [after_append, after_append, List.foldl_cons, hstay]
  exact hdone.foldl (covered_after done') (covered_after done) htodo

section

variable {before after : List Text} {a b : Text} {k : Brace} {ga gb : List Glyph} {e : ScanState} {l : Line}
  {start : Nat} {done todo : List Step} (hb : Scans .code (dropReturn b) gb e)
  (hstring : l.continuesString = decide (ScanState.code.behind before = .tripleQuoted))
  (hdone : done = (scanLines .code 1 before).flatMap Line.steps ++ .newLine l :: (Event.ofGlyphs 0 ga).map (.event l))
  (htodo : todo = (Event.ofGlyphs (start + 1) gb).map (.event l) ++
    (scanLines e.endLine (before.length + 2) after).flatMap Line.steps)

include hb hstring hdone htodo

/-- The line is cut in front of the brace. -/
theorem alike_feed_in_front (ha : Scans (ScanState.code.behind before) a ga .code) (hlen : ga.length = a.length) :
    (Outline.after ((scanLines .code 1 (before ++ a :: (k.char :: b) :: after)).flatMap Line.steps)).Alike
      (Outline.after (done ++ .event l (k.event start) :: todo)) := by
  subst hdone htodo
  obtain ⟨g, hg, halike⟩ := ha.alike_line (ScanState.startsLine_behind before) hlen hstring
    ((scanLines .code 1 before).flatMap Line.steps)
  have hline : Scans .code (dropReturn (k.char :: b)) (k.glyph :: gb) e :=
    dropReturn_cons k.char_ne_return b ▸ hb.brace k
  obtain ⟨l₁, l₂, number, hl₁, hg₁, hl₂, hg₂, hfed⟩ := exists_steps_cons_cons after hg hline
  obtain ⟨hdone, hcontinuing⟩ := halike l₁ (hl₁.trans hstring.symm) hg₁
  have hevents : l₂.events.map Event.skeleton =
      (k.event start :: Event.ofGlyphs (start + 1) gb).map Event.skeleton := by
    rw [Line.events, hg₂, ← Event.map_skeleton_ofGlyphs start, Event.ofGlyphs_brace]
  rw [hfed]
  refine Outline.alike_newLine hdone hcontinuing hl₂ ?_
  rw [List.map_append, map_skeleton_scanLines _ number (before.length + 2), Step.map_skeleton_events l₂ l hevents,
    ← List.map_append]
  rfl

/-- The line is cut behind the brace. -/
theorem alike_feed_behind
    (hab : Scans (ScanState.code.behind before) (a ++ [k.char]) (ga ++ [k.glyph]) .code) :
    (Outline.after ((scanLines .code 1 (before ++ (a ++ [k.char]) :: b :: after)).flatMap Line.steps)).Alike
      (Outline.after (done ++ .event l (k.event start) :: todo)) := by
  have hline : Scans (ScanState.code.behind before) (dropReturn (a ++ [k.char])) (ga ++ [k.glyph]) .code := by
    rw [dropReturn_append (List.cons_ne_nil _ _), dropReturn_cons k.char_ne_return]
    exact hab
  obtain ⟨l₁, l₂, number, hl₁, hg₁, hl₂, hg₂, hfed⟩ := exists_steps_cons_cons after hline hb
  have hevents : l₁.events.map Event.skeleton = (Event.ofGlyphs 0 ga ++ [k.event start]).map Event.skeleton := by
    rw [Line.events, hg₁, Event.ofGlyphs_append_brace, List.map_append, List.map_append]
    cases k <;> rfl
  have hbrace : (Outline.after ((scanLines .code 1 before).flatMap Line.steps ++ l₁.steps)).Alike
      (Outline.after (done ++ [.event l (k.event start)])) := by
    refine Outline.alike_after ?_
    rw [hdone, List.append_assoc, List.map_append, List.map_append, Line.steps, List.map_cons,
      Step.map_skeleton_events l₁ l hevents]
    simp [Step.skeleton, hl₁, hstring]
  have hcontinuing := hbrace.continuing_eq
  rw [Outline.after_concat done, Outline.step, Outline.continuing_addEvent] at hcontinuing
  rw [hfed, List.append_cons done]
  refine Outline.alike_newLine hbrace hcontinuing hl₂ ?_
  rw [htodo, List.map_append, List.map_append, map_skeleton_scanLines _ number (before.length + 2)]
  refine congrArg (· ++ _) (Step.map_skeleton_events l₂ l ?_)
  rw [Line.events, hg₂, Event.map_skeleton_ofGlyphs (start + 1)]

end

/-- A text with a line feed in front of a brace, or behind it, is read as the text without. -/
theorem Text.alike_line_feed {pre post : Text} {l : Line} {k : Brace} {start : Nat}
    (hl : l ∈ scan (pre ++ k.char :: post)) (he : k.event start ∈ l.events) (hnumber : l.number = pre.lines.length)
    (hcolumn : l.column start = pre.lastLine.length + 1) :
    ∀ fed ∈ [pre ++ '\n' :: k.char :: post, pre ++ k.char :: '\n' :: post],
      (Outline.after (steps fed)).Alike (Outline.after (steps (pre ++ k.char :: post))) := by
  obtain ⟨done, todo, hsteps⟩ : ∃ done todo, steps (pre ++ k.char :: post) = done ++ .event l (k.event start) :: todo :=
    List.append_of_mem (Step.mem_flatMap_steps.mpr ⟨hl, he⟩)
  obtain ⟨before, hpre⟩ := pre.exists_lines_eq
  obtain ⟨b, after, hpost⟩ := List.exists_cons_of_ne_nil post.lines_ne_nil
  generalize pre.lastLine = a at hpre hcolumn
  rw [hpre, List.length_append, List.length_singleton] at hnumber
  have hbrace : lines (k.char :: post) = (k.char :: b) :: after := by
    rw [lines, if_neg k.char_ne_feed, hpost]
  have hfront : lines ('\n' :: k.char :: post) = [] :: (k.char :: b) :: after := by
    rw [lines, if_pos rfl, hbrace]
  have hbehind : lines (k.char :: '\n' :: post) = [k.char] :: b :: after := by
    rw [lines, if_neg k.char_ne_feed, lines, if_pos rfl, hpost]
  have hread := hsteps
  rw [steps, scan, lines_append hpre hbrace] at hread
  obtain ⟨ga, gb, e, hlen, ha, hb, hab, hstring, hdone, htodo⟩ := steps_at_brace hread hnumber hcolumn
  rw [hsteps]
  simp only [List.forall_mem_cons]
  refine ⟨?_, ?_, List.forall_mem_nil _⟩
  · rw [steps, scan, lines_append hpre hfront, List.append_nil]
    exact alike_feed_in_front hb hstring hdone htodo ha hlen
  · rw [steps, scan, lines_append hpre hbehind]
    exact alike_feed_behind hb hstring hdone htodo hab

/-- A brace may stand on a line of its own: a line feed in front of it or behind it changes neither what the text
declares nor what is reported about it, but for positions. -/
theorem line_feed_beside_brace {text : Text} {l : Line} {k : Brace} {start : Nat} (hl : l ∈ scan text)
    (he : k.event start ∈ l.events) :
    ∃ pre post : Text, text = pre ++ k.char :: post ∧ l.number = pre.lines.length ∧
      l.column start = pre.lastLine.length + 1 ∧
      ∀ fed ∈ [pre ++ '\n' :: k.char :: post, pre ++ k.char :: '\n' :: post],
        Schema.ofText fed = Schema.ofText text ∧
        (validate fed).diagnostics.map (fun d => (d.severity, d.message)) =
          (validate text).diagnostics.map (fun d => (d.severity, d.message)) := by
  obtain ⟨pre, post, rfl, hnumber, hcolumn⟩ := Text.exists_brace hl he
  exact ⟨pre, post, rfl, hnumber, hcolumn, fun fed hfed =>
    Text.same_of_alike (Text.alike_line_feed hl he hnumber hcolumn fed hfed)⟩

/-- A table that is closed twice on the line of its only field. -/
def crowdedLine : Text := "Table a /* é */ \x7b\r\n id int[note: '\x7b'] \x7d \x7d".toList

theorem line_feed_beside_brace_crowdedLine :
    let l : Line := ⟨2, false, " id int[note: '\x7b'] ".toList.map .plain ++ [.closeBrace, .plain ' ', .closeBrace]⟩
    l ∈ scan crowdedLine ∧ Brace.closing.event 19 ∈ l.events ∧
      (validate crowdedLine).diagnostics.map (fun d => (d.severity, d.message)) =
        [(.error, "Unexpected closing brace")] ∧
      ∃ pre post : Text, crowdedLine = pre ++ '\x7d' :: post ∧ pre.lines.length = 2 ∧ pre.lastLine.length + 1 = 20 ∧
        ∀ fed ∈ [pre ++ '\n' :: '\x7d' :: post, pre ++ '\x7d' :: '\n' :: post],
          Schema.ofText fed = Schema.ofText crowdedLine ∧
          (validate fed).diagnostics.map (fun d => (d.severity, d.message)) =
            [(.error, "Unexpected closing brace")] := by
  intro l
  have hl : l ∈ scan crowdedLine := by decide +kernel
  have he : Brace.closing.event 19 ∈ l.events := by decide +kernel
  have hreport : (validate crowdedLine).diagnostics.map (fun d => (d.severity, d.message)) =
      [(.error, "Unexpected closing brace")] := by decide +kernel
  obtain ⟨pre, post, htext, hnumber, hcolumn, hfed⟩ := line_feed_beside_brace hl he
  have hplace : l.column 19 = 20 := by decide +kernel
  refine ⟨hl, he, hreport, pre, post, htext, hnumber.symm, hcolumn.symm.trans hplace, fun fed hmem => ?_⟩
  exact hreport ▸ hfed fed hmem

end SchemaDiagram
