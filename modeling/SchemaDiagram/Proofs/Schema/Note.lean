import Mathlib.Data.List.Infix
import SchemaDiagram.Proofs.Schema.Lossless
import SchemaDiagram.Proofs.Schema.Spelling
import SchemaDiagram.Proofs.Source.Prefix

/-! # Notes over several lines

A note between three apostrophes is cut into lines by the reader of lines, put together again by the pass, and read
as one string at last. Lines that are empty are lost on the way, since they have no text to append. All others
come back without the blanks at their ends, those that are nothing but blanks among them.
-/
namespace SchemaDiagram

open Text (IsBlanks)

/-! ## Lines of a note -/

namespace Text

/-- A line that a string between three apostrophes goes on over. -/
structure IsNoteLine (l : Text) : Prop where
  no_mark : ¬"'''".toList <:+: l
  no_feed : '\n' ∉ l
  no_return : '\r' ∉ l

instance (l : Text) : Decidable l.IsNoteLine :=
  decidable_of_iff (¬"'''".toList <:+: l ∧ '\n' ∉ l ∧ '\r' ∉ l)
    ⟨fun ⟨hmark, hfeed, hreturn⟩ => ⟨hmark, hfeed, hreturn⟩, fun h => ⟨h.no_mark, h.no_feed, h.no_return⟩⟩

/-- The lines of a note that are kept. -/
def noteLines (ls : List Text) : List Text := (ls.filter (· ≠ [])).map trimEnd

/-- A line with the header of a table that has a name, and an opening brace at the end of its code. -/
structure OpensTable (h : Text) : Prop where
  oneLine : h.OneLine
  exists_code : ∃ code e, scanChars .code (dropReturn h) = (code.map .plain ++ [.openBrace], e) ∧
    e.endLine = .code ∧ ((TableHeader.read? (trim code)).bind (·.name)).isSome = true

end Text

/-- The line on which a note over several lines starts. -/
def noteOpening : Text := "Note: ".toList ++ "'''".toList

/-- A table with nothing but a note between three apostrophes. -/
def noteTable (h : Text) (ls : List Text) : Text :=
  Text.joinWith '\n' (h :: noteOpening :: ls ++ ["'''".toList, "\x7d".toList])

theorem not_startsPair_of_not_mark {rest : Text} (h : ¬"'''".toList <:+: '\'' :: rest) : ¬StartsPair rest := by
  rintro ⟨behind, rfl⟩
  exact h ⟨[], behind, rfl⟩

theorem scanChars_noteLine {l : Text} (h : ¬"'''".toList <:+: l) :
    scanChars .tripleQuoted l = (l.map .plain, .tripleQuoted) := by
  refine Scans.eq_scanChars ?_
  induction l with
  | nil => exact .done
  | cons c l ih =>
      refine .triple (fun hc => ?_) (ih fun hl => h (hl.trans (List.suffix_cons c l).isInfix))
      subst hc
      exact not_startsPair_of_not_mark h

theorem Text.IsNoteLine.dropReturn_eq {l : Text} (h : l.IsNoteLine) : dropReturn l = l := by
  rcases SchemaDiagram.dropReturn_eq l with hdrop | hdrop
  · exact hdrop
  · exact absurd (hdrop ▸ List.mem_append_right _ (List.mem_singleton_self _)) h.no_return

/-! ## The string -/

/-- A line feed is no part of the three apostrophes that end the string. -/
theorem readTripleQuoted_line {l : Text} (h : ¬"'''".toList <:+: l) (rest : Text) :
    readTripleQuoted (l ++ '\n' :: rest) =
      (l ++ '\n' :: (readTripleQuoted rest).1, (readTripleQuoted rest).2) := by
  induction l with
  | nil => rfl
  | cons c l ih =>
      have hl := ih fun hl => h (hl.trans (List.suffix_cons c l).isInfix)
      rw [List.cons_append, readTripleQuoted, hl]
      · rfl
      · rintro behind rfl hbehind
        rcases l with - | ⟨d, - | ⟨d', l⟩⟩
        · cases hbehind
        · cases hbehind
        · obtain ⟨rfl, hrest⟩ := List.cons.inj hbehind
          obtain ⟨rfl, -⟩ := List.cons.inj hrest
          exact h ⟨[], l, rfl⟩

theorem readTripleQuoted_lines {l : Text} (h : ¬"'''".toList <:+: l) {ls : List Text}
    (hls : ∀ l ∈ ls, ¬"'''".toList <:+: l) :
    readTripleQuoted (l ++ ls.flatMap ('\n' :: ·) ++ "\n'''".toList) = (l ++ ls.flatMap ('\n' :: ·) ++ ['\n'], []) := by
  induction ls generalizing l with
  | nil =>
      rw [List.flatMap_nil, List.append_nil]
      exact readTripleQuoted_line h "'''".toList
  | cons l' ls ih =>
      have hrest := ih (hls l' List.mem_cons_self) fun m hm => hls m (List.mem_cons_of_mem l' hm)
      have hread := readTripleQuoted_line h (l' ++ ls.flatMap ('\n' :: ·) ++ "\n'''".toList)
      rw [hrest] at hread
      simpa using hread

theorem Text.not_mark_of_mem_noteLines {ls : List Text} (h : ∀ l ∈ ls, l.IsNoteLine) {l : Text}
    (hl : l ∈ noteLines ls) : ¬"'''".toList <:+: l := by
  obtain ⟨m, hm, rfl⟩ := List.mem_map.mp hl
  obtain ⟨blanks, -, hcut⟩ := exists_trimEnd_eq m
  exact fun hmark => (h m (List.mem_filter.mp hm).1).no_mark (hmark.trans ⟨[], blanks, hcut⟩)

/-- The statement that a note and its lines are put together to. -/
def mergedNote (ls : List Text) : Text :=
  noteOpening ++ (Text.noteLines ls).flatMap ('\n' :: ·) ++ "\n'''".toList

/-- What stands in front of the string. -/
def noteSegments : List Segment := [.word "Note".toList, .colon, .space]

theorem readable_noteSegments : Segment.Readable noteSegments := by
  have hword : Text.IsWord "Note".toList := by decide
  exact (Segment.readable_singleton (p := .word "Note".toList) hword).append
    ((Segment.readable_singleton (p := .space) trivial).cons (p := .colon) trivial) (by simp [Segment.IsBreak])

theorem noteOpening_append (t : Text) :
    noteOpening ++ t = Segment.line noteSegments ++ '\'' :: '\'' :: '\'' :: t := by
  have hopening : noteOpening = Segment.line noteSegments ++ ['\'', '\'', '\''] := by decide
  rw [hopening, List.append_assoc]
  rfl

theorem noteLine?_string {t content rest : Text} (h : readTripleQuoted t = (content, rest)) :
    noteLine? (noteOpening ++ t) = some (some content) := by
  have hends : ∀ p ∈ noteSegments.getLast?, p.EndsBefore ('\'' :: '\'' :: '\'' :: t) := by
    simp [noteSegments, Segment.EndsBefore]
  have htokens := Segment.tokensFrom_line_append readable_noteSegments hends 0
  have hlexemes : Segment.lexemes 0 noteSegments = [⟨.word "Note".toList, 0, 4⟩, ⟨.colon, 4, 5⟩] := by decide
  rw [hlexemes, tokensFrom, if_neg (by decide), Token.read_pair, h] at htokens
  rw [noteLine?, tokens, noteOpening_append, htokens]
  rfl

theorem noteLine?_mergedNote {ls : List Text} (h : ∀ l ∈ ls, l.IsNoteLine) :
    noteLine? (mergedNote ls) = some (some ((Text.noteLines ls).flatMap ('\n' :: ·) ++ ['\n'])) := by
  have hstring := readTripleQuoted_lines (l := []) (by simp) fun l hl => Text.not_mark_of_mem_noteLines h hl
  rw [mergedNote, List.append_assoc]
  exact noteLine?_string hstring

/-- Blanks around a note do not matter, and the line feeds around its lines are blanks. -/
theorem trim_flatMap_feed (ls : List Text) :
    Text.trim (ls.flatMap ('\n' :: ·) ++ ['\n']) = Text.trim (Text.joinWith '\n' ls) := by
  have hfeed : IsBlanks ['\n'] := by simp [IsBlanks, Text.isBlank]
  cases ls with
  | nil => rfl
  | cons l ls =>
      have hjoin : (l :: ls).flatMap ('\n' :: ·) = ['\n'] ++ Text.joinWith '\n' (l :: ls) := by
        induction ls generalizing l with
        | nil => simp [Text.joinWith]
        | cons m ls ih =>
            rw [List.flatMap_cons, ih m]
            simp [Text.joinWith]
      rw [hjoin, Text.trim_append_blanks _ hfeed, Text.trim_blanks_append hfeed]

/-! ## The pass -/

namespace Outline

variable {o₀ o : Outline} {kind : BlockKind} {header s : Statement} {body : List Statement}

/-- A line that goes on with a string is appended to the statement that the string stands in. -/
theorem Inside.addLine_continuing (h : Inside o₀ o kind header (body ++ [s])) {l : Text} (hl : l ≠ []) (number : Nat) :
    ∃ s', s'.text = s.text ++ '\n' :: l.trimEnd ∧ s'.context = s.context ∧ s'.opens = s.opens ∧
      Inside o₀ (o.addLine ⟨number, true, l.map .plain⟩) kind header (body ++ [s']) := by
  have hstatements : o.statements = (o₀.statements ++ header :: body) ++ [s] := by simp [h.statements_eq]
  have hadd : o.addLine ⟨number, true, l.map .plain⟩ = ({ o with continuing := true } : Outline).appendToLast l := by
    have hevents : Line.events ⟨number, true, l.map .plain⟩ = [.text 0 l] := events_plain hl number
    have hne : o.statements.isEmpty = false := by simp [hstatements]
    rw [addLine, hevents]
    simp [addEvent, hne]
  refine ⟨{ s with text := s.text ++ '\n' :: l.trimEnd }, rfl, rfl, rfl, h.consistent.addLine _, ?_, ?_, ?_, ?_⟩
  · have hmodify := modify_concat (o₀.statements ++ header :: body) s
      fun s => { s with text := s.text ++ '\n' :: l.trimEnd }
    rw [hadd, appendToLast]
    dsimp only
    rw [hstatements, List.length_append, List.length_singleton, Nat.add_sub_cancel, hmodify]
    simp
  all_goals rw [hadd]
  · exact h.blocks_eq
  · exact h.stack_eq
  · exact h.depth_ne

theorem Inside.addLine_empty (h : Inside o₀ o kind header body) (number : Nat) :
    Inside o₀ (o.addLine ⟨number, true, []⟩) kind header body :=
  ⟨h.consistent.addLine _, h.statements_eq, h.blocks_eq, h.stack_eq, h.depth_ne⟩

theorem Inside.addLines_note (h : Inside o₀ o kind header (body ++ [s])) {ls : List Text}
    (hls : ∀ l ∈ ls, l.IsNoteLine) (number : Nat) (rest : List Text) :
    ∃ o' s', (scanLines .tripleQuoted number (ls ++ rest)).foldl addLine o =
        (scanLines .tripleQuoted (number + ls.length) rest).foldl addLine o' ∧
      s'.text = s.text ++ (Text.noteLines ls).flatMap ('\n' :: ·) ∧ s'.context = s.context ∧ s'.opens = s.opens ∧
      Inside o₀ o' kind header (body ++ [s']) := by
  induction ls generalizing o s number with
  | nil => exact ⟨o, s, rfl, by simp [Text.noteLines], rfl, rfl, h⟩
  | cons l ls ih =>
      have hl := hls l List.mem_cons_self
      have hrest := fun m hm => hls m (List.mem_cons_of_mem l hm)
      have hscan : scanLines .tripleQuoted number (l :: ls ++ rest) =
          ⟨number, true, l.map .plain⟩ :: scanLines .tripleQuoted (number + 1) (ls ++ rest) := by
        rw [List.cons_append, scanLines_cons, hl.dropReturn_eq, scanChars_noteLine hl.no_mark]
        rfl
      have hnumber : number + (l :: ls).length = number + 1 + ls.length := by
        rw [List.length_cons]
        omega
      rw [hscan, List.foldl_cons, hnumber]
      by_cases hempty : l = []
      · subst hempty
        exact ih (h.addLine_empty number) hrest (number + 1)
      · obtain ⟨s₁, htext₁, hcontext₁, hopens₁, hinside⟩ := h.addLine_continuing hempty number
        obtain ⟨o', s', hlines, htext, hcontext, hopens, hinside'⟩ := ih hinside hrest (number + 1)
        refine ⟨o', s', hlines, ?_, hcontext.trans hcontext₁, hopens.trans hopens₁, hinside'⟩
        rw [htext, htext₁]
        simp [Text.noteLines, hempty]

end Outline

/-! ## The table -/

theorem Text.trimEnd_mark : trimEnd "'''".toList = "'''".toList := by decide

theorem lines_noteTable {h : Text} (hh : h.OneLine) {ls : List Text} (hls : ∀ l ∈ ls, l.IsNoteLine) :
    (noteTable h ls).lines = h :: noteOpening :: (ls ++ ["'''".toList, ['\x7d']]) := by
  refine Text.lines_joinWith (List.cons_ne_nil _ _) fun l hl => ?_
  simp only [List.mem_cons, List.mem_append, List.cons_append, List.not_mem_nil, or_false] at hl
  rcases hl with rfl | rfl | hl | rfl | rfl
  · exact hh
  · decide
  · exact (hls l hl).no_feed
  · decide
  · decide

open Outline in
theorem outline_noteTable {h code : Text} (hh : h.OneLine) {e : ScanState}
    (hscan : scanChars .code (dropReturn h) = (code.map .plain ++ [.openBrace], e)) (he : e.endLine = .code)
    (hcode : Text.trim code ≠ []) (hkind : BlockKind.ofHeader (Text.trim code) = .table)
    {ls : List Text} (hls : ∀ l ∈ ls, l.IsNoteLine) :
    ∃ header s block, header.text = Text.trim code ∧ s.text = mergedNote ls ∧ block.kind = .table ∧
      AddsBlock .empty (Source.ofText (noteTable h ls)).outline header [s] block := by
  obtain ⟨header, htext, hcontext, hopens, hinside⟩ := inside_code_opening consistent_empty rfl hcode 1
  rw [hkind] at hinside
  have hopening : Text.trim noteOpening = noteOpening := by decide
  have hne : Text.trim noteOpening ≠ [] := by decide
  obtain ⟨s₁, htext₁, hcontext₁, hopens₁, hinside₁⟩ := hinside.addLine_plain hne 2
  obtain ⟨o₂, s₂, hlines, htext₂, hcontext₂, hopens₂, hinside₂⟩ :=
    hinside₁.addLines_note hls 3 ["'''".toList, ['\x7d']]
  obtain ⟨s, htext₃, hcontext₃, hopens₃, hinside₃⟩ :=
    hinside₂.addLine_continuing (l := "'''".toList) (by decide) (3 + ls.length)
  obtain ⟨block, hadds, hblock⟩ := hinside₃.addsBlock hcontext hopens
    (by simp [hcontext₃, hcontext₂, hcontext₁, hopens₃, hopens₂, hopens₁]) (3 + ls.length + 1)
  refine ⟨header, s, block, htext, ?_, hblock, ?_⟩
  · rw [htext₃, htext₂, htext₁, hopening, Text.trimEnd_mark]
    rfl
  · have hscanned : scanChars .code (dropReturn noteOpening) = (noteOpening.map .plain, .tripleQuoted) := by decide
    have hread : ∀ o : Outline, o.read 2 (noteOpening :: (ls ++ ["'''".toList, ['\x7d']])) =
        (scanLines .tripleQuoted 3 (ls ++ ["'''".toList, ['\x7d']])).foldl addLine
          (o.addLine ⟨2, false, noteOpening.map .plain⟩) := by
      intro o
      rw [Outline.read, scanLines_cons, hscanned]
      rfl
    have houtline : (Source.ofText (noteTable h ls)).outline = Outline.empty.read 1 (noteTable h ls).lines := rfl
    rw [houtline, lines_noteTable hh hls, read_code hscan he, hread, hlines]
    exact hadds

/-- A note over several lines is what its lines are, without the blanks at their ends and around them all. Of empty
lines nothing is left. -/
theorem Schema.note_noteTable {h : Text} (hh : h.OpensTable) {ls : List Text} (hls : ∀ l ∈ ls, l.IsNoteLine) :
    ∃ t, (ofText (noteTable h ls)).tables = [t] ∧
      t.note = some (Text.trim (Text.joinWith '\n' (Text.noteLines ls))) := by
  obtain ⟨code, e, hscan, he, hsome⟩ := hh.exists_code
  obtain ⟨name, hheader⟩ := Option.isSome_iff_exists.mp hsome
  obtain ⟨header, hheader, hname⟩ := Option.bind_eq_some_iff.mp hheader
  have hcode : Text.trim code ≠ [] := by
    intro hnil
    rw [hnil, TableHeader.read?, tokens, tokensFrom] at hheader
    cases hheader
  obtain ⟨statement, s, b, htext, hs, hkind, hadds⟩ := outline_noteTable hh.oneLine hscan he hcode
    (BlockKind.ofHeader_eq_table_iff_header.mpr ⟨header, hheader⟩) hls
  rw [← htext] at hheader
  have hline : TableLine.read s.text = .note (some ((Text.noteLines ls).flatMap ('\n' :: ·) ++ ['\n'])) := by
    rw [TableLine.read, hs, noteLine?_mergedNote hls]
  have hlines : (Source.ofText (noteTable h ls)).outline.tableLines b = [TableLine.read s.text] := by
    have hbody := hadds.body_eq Outline.consistent_empty (by rw [hkind]; rfl)
    simp [Outline.tableLines, hbody, hadds.opens_body s List.mem_cons_self]
  obtain ⟨t, ht⟩ : ∃ t : Table, header.settings.foldl Table.withSetting
      { name := name.value, otherName := header.otherName } = t := ⟨_, rfl⟩
  have htable := Outline.table?_of_header hadds.header?_eq hheader hname ht
  rw [hlines, hline] at htable
  refine ⟨{ t with note := some _ }, ?_, congrArg some (trim_flatMap_feed (Text.noteLines ls))⟩
  have htables : (ofText (noteTable h ls)).tables = (Source.ofText (noteTable h ls)).outline.tables.map Prod.fst := rfl
  have hblocks : (Source.ofText (noteTable h ls)).outline.blocks = [b] := hadds.blocks_eq
  have htable? : [b].filter (·.kind = .table) = [b] := by simp [hkind]
  rw [htables, Outline.tables, hblocks, htable?, List.filterMap_cons, htable]
  rfl

theorem opensTable_t : Text.OpensTable "Table t \x7b".toList :=
  ⟨by decide, "Table t ".toList, .code, by decide +kernel, rfl, by decide +kernel⟩

/-- Lines with what would be a comment, a brace or a string elsewhere. -/
def noteExample : List Text := ["one  ".toList, [], "  // two".toList, " ".toList, "\x7b 'x".toList]

theorem Schema.note_noteTable_noteExample :
    (Text.OpensTable "Table t \x7b".toList ∧ ∀ l ∈ noteExample, l.IsNoteLine) ∧
      ∃ t, (ofText (noteTable "Table t \x7b".toList noteExample)).tables = [t] ∧
        t.note = some "one\n  // two\n\n\x7b 'x".toList := by
  have hls : ∀ l ∈ noteExample, l.IsNoteLine := by decide +kernel
  obtain ⟨t, ht, hnote⟩ := note_noteTable opensTable_t hls
  have htrim : Text.trim (Text.joinWith '\n' (Text.noteLines noteExample)) =
      "one\n  // two\n\n\x7b 'x".toList := by decide +kernel
  exact ⟨⟨opensTable_t, hls⟩, t, ht, by rw [hnote, htrim]⟩

/-- An empty line between two others is lost. -/
theorem Schema.not_forall_note_noteTable : ¬∀ h : Text, h.OpensTable → ∀ ls : List Text, (∀ l ∈ ls, l.IsNoteLine) →
    ∃ t, (ofText (noteTable h ls)).tables = [t] ∧
      t.note = some (Text.trim (Text.joinWith '\n' (ls.map Text.trimEnd))) := by
  intro hall
  obtain ⟨t, ht, hnote⟩ := hall _ opensTable_t ["a".toList, [], "b".toList] (by decide +kernel)
  have hlost : (ofText (noteTable "Table t \x7b".toList ["a".toList, [], "b".toList])).tables.map Table.note =
      [some "a\nb".toList] := by decide +kernel
  rw [ht, List.map_singleton, hnote] at hlost
  revert hlost
  decide +kernel

end SchemaDiagram
