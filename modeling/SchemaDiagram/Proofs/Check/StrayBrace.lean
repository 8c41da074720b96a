import SchemaDiagram.Proofs.Check.Join

/-! # A brace too many

A closing brace on a line of its own, where no brace is open, is reported and does nothing else: the schema
stays the same, and so do all other diagnostics but for the numbers of the lines behind the brace.
-/
namespace SchemaDiagram

/-- The text with one more line behind its first `n` lines. -/
def Text.insertLine (t : Text) (n : Nat) (line : Text) : Text :=
  joinWith '\n' (t.lines.take n ++ line :: t.lines.drop n)

/-- The number of a line once there is one more line behind the first `n`. -/
def numberBehind (n line : Nat) : Nat := if line ≤ n then line else line + 1

theorem Text.lines_insertLine (t : Text) (n : Nat) {line : Text} (h : '\n' ∉ line) :
    (t.insertLine n line).lines = t.lines.take n ++ line :: t.lines.drop n := by
  have hline : ∀ raw ∈ t.lines, '\n' ∉ raw := fun raw hraw hmem => (mem_of_mem_lines hraw hmem).2 rfl
  refine lines_joinWith (by simp) fun raw hraw => ?_
  rcases List.mem_append.mp hraw with hraw | hraw
  · exact hline raw (List.mem_of_mem_take hraw)
  · rcases List.mem_cons.mp hraw with rfl | hraw
    · exact h
    · exact hline raw (List.mem_of_mem_drop hraw)

variable {before after : List Text}

theorem one_le_numberBehind (n : Nat) {line : Nat} (h : 1 ≤ line) : 1 ≤ numberBehind n line := by
  rw [numberBehind]
  split <;> omega

/-- Lines in front keep their numbers and lines behind count one more. -/
theorem scanLines_numberBehind (before after : List Text) :
    (scanLines .code 1 before ++ scanLines .code (1 + before.length) after).map
      (Line.renumber (numberBehind before.length)) =
      scanLines .code 1 before ++ scanLines .code (1 + (before.length + 1)) after := by
  rw [List.map_append, ← Nat.add_assoc 1, ← scanLines_renumber (Nat.le_add_right 1 _) 1]
  congr 1
  · conv_rhs => rw [← List.map_id (scanLines .code 1 before)]
    refine List.map_congr_left fun l hl => ?_
    have hbounds := number_of_mem_scanLines hl
    rw [Line.renumber, numberBehind, Nat.max_eq_right hbounds.1, if_pos (by omega)]
    rfl
  · refine List.map_congr_left fun l hl => ?_
    have hbounds := number_of_mem_scanLines hl
    rw [Line.renumber, Line.renumber, numberBehind, if_neg (by omega)]

/-! ## The line of the brace -/

/-- Line `number` with a closing brace and nothing else. -/
def closingLine (number : Nat) : Line := ⟨number, false, [.closeBrace]⟩

theorem Outline.addLine_closingLine {o : Outline} (h : o.depth = 0) (number : Nat) :
    o.addLine (closingLine number) =
      { o with strayCloses := o.strayCloses ++ [⟨number, 1⟩], pending := none, continuing := false } := by
  have hevents : (closingLine number).events = [.closeBrace 0] := rfl
  simp only [addLine, hevents, List.foldl_cons, List.foldl_nil, addEvent, closeBrace, h, ↓reduceIte]
  rfl

namespace Source

/-- No check but that of braces looks at closing braces. -/
theorem exists_diagnostics_eq (lines lines' : List Line) (o : Outline) (strayCloses : List StrayClose) :
    ∃ front back, diagnostics ⟨lines, o⟩ = front ++ (checkBraces ⟨lines, o⟩ ++ back) ∧
      diagnostics ⟨lines', { o with strayCloses }⟩ =
        front ++ (checkBraces ⟨lines', { o with strayCloses }⟩ ++ back) :=
  ⟨checkDuplicates ⟨lines, o⟩, (checks.drop 2).flatMap (· ⟨lines, o⟩), rfl, rfl⟩

theorem checkBraces_of_closed {s : Source} (h : s.outline.unclosed = 0) :
    checkBraces s = s.outline.strayCloses.map fun c => Problem.strayBrace.mark c.line c.column (c.column + 1) := by
  rw [checkBraces, h]
  exact List.append_nil _

section

variable {front : List Line} (hdepth : (Outline.ofLines front).depth = 0)

include hdepth

theorem outline_closingLine (number : Nat) :
    Outline.ofLines (front ++ [closingLine number]) =
      { Outline.ofLines front with
        strayCloses := (Outline.ofLines front).strayCloses ++ [⟨number, 1⟩]
        pending := none
        continuing := false } := by
  rw [Outline.ofLines, List.foldl_append]
  exact Outline.addLine_closingLine hdepth number

theorem depth_closingLine (number : Nat) : (Outline.ofLines (front ++ [closingLine number])).depth = 0 :=
  (congrArg Outline.depth (outline_closingLine hdepth number)).trans hdepth

theorem checkBraces_closingLine (number : Nat) :
    checkBraces (ofLines (front ++ [closingLine number])) =
      checkBraces (ofLines front) ++ [Problem.strayBrace.mark number 1 2] := by
  have hclosed : (ofLines (front ++ [closingLine number])).outline.unclosed = 0 := depth_closingLine hdepth number
  have hstrays : (ofLines (front ++ [closingLine number])).outline.strayCloses =
      (ofLines front).outline.strayCloses ++ [⟨number, 1⟩] :=
    congrArg Outline.strayCloses (outline_closingLine hdepth number)
  rw [checkBraces_of_closed hclosed, checkBraces_of_closed (s := ofLines front) hdepth, hstrays, List.map_append]
  rfl

/-- Behind the brace everything goes on as without it. -/
theorem join_closingLine (number : Nat) (g : Nat → Nat) (r : Source) :
    ((ofLines (front ++ [closingLine number])).join g r).outline =
      { ((ofLines front).join g r).outline with
        strayCloses := ((ofLines (front ++ [closingLine number])).join g r).outline.strayCloses } := by
  simp only [join, ofLines, outline_closingLine hdepth]
  rfl

/-- A closing brace between lines is one more diagnostic, and nothing else. -/
theorem ofLines_closingLine (number offset : Nat) (hfirst : startsWithBrace (scanLines .code 1 after) = false) :
    let s := ofLines (front ++ scanLines .code (1 + offset) after)
    let r := ofLines (front ++ closingLine number :: scanLines .code (1 + offset) after)
    r.outline.written = s.outline.written ∧ ∃ xs ys, s.diagnostics = xs ++ ys ∧
      r.diagnostics = xs ++ Problem.strayBrace.mark number 1 2 :: ys := by
  intro s r
  let behind := ofLines (scanLines .code 1 after)
  let without := (ofLines front).join (· + offset) behind
  let extra := (ofLines (front ++ [closingLine number])).join (· + offset) behind
  have hclosed := depth_closingLine hdepth number
  have hs : s.settled = without.settled := settled_ofLines_append hdepth offset hfirst
  have hr : r.settled = extra.settled := by
    rw [← settled_ofLines_append hclosed offset hfirst, List.append_assoc]
    rfl
  have hjoin := join_closingLine hdepth number (· + offset) behind
  constructor
  · rw [written_eq_of_settled hr, written_eq_of_settled hs, hjoin]
    rfl
  · let more := (checkBraces behind).map (Diagnostic.renumber (· + offset))
    have hpositive : ∀ n, 1 ≤ n → 1 ≤ n + offset := fun n hn => Nat.le_add_right_of_le hn
    have hbraces : checkBraces without = checkBraces (ofLines front) ++ more :=
      checkBraces_join hpositive hdepth hasCode_of_depth
    have hbraces' : checkBraces extra =
        checkBraces (ofLines front) ++ [Problem.strayBrace.mark number 1 2] ++ more := by
      rw [← checkBraces_closingLine hdepth]
      exact checkBraces_join hpositive hclosed hasCode_of_depth
    obtain ⟨xs, ys, hxs, hys⟩ :=
      exists_diagnostics_eq without.lines extra.lines without.outline extra.outline.strayCloses
    rw [← hjoin] at hys
    refine ⟨xs ++ checkBraces (ofLines front), more ++ ys, ?_, ?_⟩
    · calc
        _ = xs ++ (checkBraces without ++ ys) := (diagnostics_eq_of_settled hs).trans hxs
        _ = _ := by rw [hbraces, List.append_assoc, List.append_assoc]
    · calc
        _ = xs ++ (checkBraces extra ++ ys) := (diagnostics_eq_of_settled hr).trans hys
        _ = _ := by
          rw [hbraces']
          simp only [List.append_assoc, List.cons_append, List.nil_append]

end

end Source

/-! ## The line in a text -/

/-- The text under the numbers its lines have once there is one more behind the first `before`. -/
theorem Source.join_numberBehind {t : Text} (hlines : t.lines = before ++ after)
    (hcode : ScanState.code.behind before = .code) :
    (ofLines []).join (numberBehind before.length) (ofText t) =
      ofLines (scanLines .code 1 before ++ scanLines .code (1 + (before.length + 1)) after) := by
  have hrenumber := scanLines_numberBehind before after
  rw [← scan_eq_append hlines hcode] at hrenumber
  rw [← hrenumber]
  exact congrArg (Source.mk _) (Outline.ofLines_renumber _ 1 t.lines).symm

theorem Source.written_renumber (g : Nat → Nat) (t : Text) :
    ((ofLines []).join g (ofText t)).outline.written = (ofText t).outline.written := by
  have hj := Outline.consistent_join Outline.consistent_empty g 1 t.lines
  exact (Outline.written_join Outline.consistent_empty hj).trans (Outline.empty_writtenThen _)

/-- A closing brace that closes nothing is reported on its line and changes nothing else. -/
theorem validate_insertLine {t : Text} {n : Nat} (hn : n ≤ t.lines.length)
    (hcode : ScanState.code.behind (t.lines.take n) = .code)
    (hdepth : (Outline.ofLines ((scan t).take n)).depth = 0)
    (hfirst : startsWithBrace ((scan t).drop n) = false) :
    Schema.ofText (t.insertLine n ['\x7d']) = Schema.ofText t ∧
    ∃ front back, (validate t).diagnostics = front ++ back ∧
      (validate (t.insertLine n ['\x7d'])).diagnostics =
        front.map (Diagnostic.renumber (numberBehind n)) ++
          ⟨.error, n + 1, 1, 2, "Unexpected closing brace"⟩ :: back.map (Diagnostic.renumber (numberBehind n)) := by
  obtain ⟨before, after, hlines, hbefore, hafter, rfl⟩ : ∃ before after, t.lines = before ++ after ∧
      t.lines.take n = before ∧ t.lines.drop n = after ∧ before.length = n :=
    ⟨_, _, (List.take_append_drop n t.lines).symm, rfl, rfl, List.length_take_of_le hn⟩
  rw [hbefore] at hcode
  have hscan := scan_eq_append hlines hcode
  rw [hscan, List.take_left' (length_scanLines _ _ _)] at hdepth
  rw [hscan, List.drop_left' (length_scanLines _ _ _), ← scanLines_renumber (Nat.le_refl 1),
    startsWithBrace_renumber] at hfirst
  have hinserted : Source.ofText (t.insertLine before.length ['\x7d']) = Source.ofLines (scanLines .code 1 before ++
      closingLine (1 + before.length) :: scanLines .code (1 + (before.length + 1)) after) := by
    have hfeed : '\n' ∉ ['\x7d'] := by decide
    have hlines' := t.lines_insertLine before.length hfeed
    rw [hbefore, hafter] at hlines'
    exact congrArg Source.ofLines (scan_eq_append hlines' hcode)
  have hjoin := Source.join_numberBehind hlines hcode
  obtain ⟨hwritten, xs, ys, hdiagnostics, hdiagnostics'⟩ :=
    Source.ofLines_closingLine hdepth (1 + before.length) (before.length + 1) hfirst
  rw [← hinserted] at hwritten hdiagnostics'
  rw [← hjoin] at hwritten hdiagnostics
  constructor
  · rw [Schema.ofText, hwritten, Source.written_renumber]
    rfl
  · have hrenumber : ((Source.ofLines []).join (numberBehind before.length) (Source.ofText t)).diagnostics =
        (validate t).diagnostics.map (Diagnostic.renumber (numberBehind before.length)) :=
      Source.diagnostics_renumber (fun n hn => one_le_numberBehind before.length hn) (scan t)
    obtain ⟨front, back, hall, rfl, rfl⟩ := List.map_eq_append_iff.mp (hrenumber.symm.trans hdiagnostics)
    have hmark : Problem.strayBrace.mark (1 + before.length) 1 2 =
        ⟨.error, before.length + 1, 1, 2, "Unexpected closing brace"⟩ := by
      have hline : max 1 (1 + before.length) = before.length + 1 := by omega
      simp only [Problem.mark, Diagnostic.mark, hline]
      rfl
    rw [hmark] at hdiagnostics'
    refine ⟨front, back, hall, ?_⟩
    simp only [validate, hdiagnostics']

/-- Two tables of one name, an unknown type, an unfinished string, a brace that closes nothing and a
block that is left open. -/
def uneven : Text :=
  "Table a \x7b\n id itn\n\x7d\nRef: 'x\n\nTable a \x7b\n id int [pkk]\n\x7d\n\x7d\nTable b \x7b".toList

theorem validate_insertLine_uneven :
    Schema.ofText (uneven.insertLine 4 ['\x7d']) = Schema.ofText uneven ∧
    ∃ front back, (validate uneven).diagnostics = front ++ back ∧
      (validate (uneven.insertLine 4 ['\x7d'])).diagnostics =
        front.map (Diagnostic.renumber (numberBehind 4)) ++
          ⟨.error, 5, 1, 2, "Unexpected closing brace"⟩ :: back.map (Diagnostic.renumber (numberBehind 4)) :=
  validate_insertLine (by decide +kernel) (by decide +kernel) (by decide +kernel) (by decide +kernel)

end SchemaDiagram
