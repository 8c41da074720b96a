import SchemaDiagram.Check.Statement
import SchemaDiagram.Proofs.Grammar.Shift
import SchemaDiagram.Proofs.Source.Position
import SchemaDiagram.Proofs.Source.Span
import SchemaDiagram.Proofs.Writing.Block

/-! # Spellings of a reference

A reference is written behind the word `Ref` and a colon, or as the line of a block with that word in front.
Either way it is the same tokens that are read, only further to the right behind the colon. So both spellings
declare the same relationship, or are warned of alike.
-/
namespace SchemaDiagram

open Segment
open Text (IsBlanks)

/-! ## Lines of code -/

/-- What is read of a line that starts outside of strings and comments. -/
def Text.glyphs (b : Text) : List Glyph := (scanChars .code (dropReturn b)).1

def Text.code (b : Text) : Text := b.glyphs.map Glyph.char

/-- A line with code and without braces, behind which the next line starts outside of strings and comments. -/
structure Text.IsCodeLine (b : Text) : Prop where
  oneLine : b.OneLine
  trim_ne : b.code.trim ≠ []
  not_open : .openBrace ∉ b.glyphs
  not_close : .closeBrace ∉ b.glyphs
  closed : (scanChars .code (dropReturn b)).2.endLine = .code

namespace Text.IsCodeLine

variable {b : Text}

theorem glyphs_eq (h : b.IsCodeLine) : b.glyphs = b.code.map .plain := by
  rw [code, List.map_map]
  refine (List.map_id _).symm.trans (List.map_congr_left fun g hg => ?_)
  cases g with
  | plain c => rfl
  | openBrace => exact absurd hg h.not_open
  | closeBrace => exact absurd hg h.not_close

theorem ne_nil (h : b.IsCodeLine) : b ≠ [] := by
  rintro rfl
  exact h.trim_ne rfl

/-- The line behind other text that is code. -/
theorem scanChars_line (h : b.IsCodeLine) {ps : List Segment} (hps : ∀ p ∈ ps, p.WellFormed) :
    scanChars .code (dropReturn (line ps ++ b)) =
      ((line ps ++ b.code).map .plain, (scanChars .code (dropReturn b)).2) := by
  have hglyphs : (scanChars .code (dropReturn b)).1 = b.code.map .plain := h.glyphs_eq
  rw [dropReturn_append h.ne_nil, Segment.scanChars_line hps, hglyphs, List.map_append]

end Text.IsCodeLine

/-! ## Both spellings -/

/-- The word `Ref`, and a name if there is one. -/
def refWord : Option Text → Text
  | none => "Ref".toList
  | some name => "Ref ".toList ++ name

/-- `Ref name: b`. -/
def refStatement (name : Option Text) (b : Text) : Text := refWord name ++ ": ".toList ++ b

/-- `Ref name` and an opening brace, `b`, and the closing brace, on three lines. -/
def refBlock (name : Option Text) (b : Text) : Text := refWord name ++ " \x7b\n".toList ++ b ++ "\n\x7d".toList

/-- A text without tables declares what is read as the body of a reference, or else it is warned of. -/
structure Source.Spells (s : Source) (name : Option Text) (body : Text) : Prop where
  tables_eq : s.outline.tables = []
  relationships_eq : s.outline.standaloneRelationships =
    ((RefBody.read? body).map fun r => Relationship.ofBody r name).toList
  length_warnings : (checkReferences s).length = if (RefBody.read? body).isSome then 0 else 1

/-- One statement says it all, and those in front of it are no references. -/
theorem Source.Spells.of_statements {source : Source} {name : Option Text} {body : Text} (front : List Statement)
    {s : Statement} (htables : source.outline.tables = []) (hstatements : source.outline.statements = front ++ [s])
    (hfront : ∀ t ∈ front, source.outline.relationship? t = none ∧ referenceProblem? t = none)
    (hread : source.outline.relationship? s = (RefBody.read? body).map fun r => Relationship.ofBody r name)
    (hproblem : (referenceProblem? s).isSome = (RefBody.read? body).isNone) : source.Spells name body := by
  refine ⟨htables, ?_, ?_⟩
  · have hnone := List.filterMap_eq_nil_iff.mpr fun t ht => (hfront t ht).1
    rw [Outline.standaloneRelationships, hstatements, List.filterMap_append, hnone, List.nil_append,
      List.filterMap_cons, hread]
    cases RefBody.read? body <;> rfl
  · have hnone : front.filterMap (fun t => (referenceProblem? t).map (·.markAll t)) = [] :=
      List.filterMap_eq_nil_iff.mpr fun t ht => by rw [(hfront t ht).2, Option.map_none]
    rw [checkReferences, hstatements, List.filterMap_append, hnone, List.nil_append]
    cases hp : referenceProblem? s <;> cases hbody : RefBody.read? body <;> simp_all

/-! ## Heads -/

def refHead : Option Text → List Segment
  | none => [word "Ref".toList]
  | some name => [word "Ref".toList, space, word name]

theorem line_refHead (name : Option Text) : line (refHead name) = refWord name := by
  cases name <;> simp [refHead, refWord, text]

variable {name : Option Text}

theorem readable_refHead (h : ∀ n ∈ name, n.IsIdentifier) : Readable (refHead name) := by
  have hword : Readable [word "Ref".toList] := readable_singleton (show Text.IsWord "Ref".toList by decide)
  cases name with
  | none => exact hword
  | some n =>
      have hname := (readable_singleton (p := word n) (h n rfl).isWord).cons (p := space) trivial
      exact hword.append hname (by simp [IsBreak])

theorem isStatement_refHead (h : ∀ n ∈ name, n.IsIdentifier) : IsStatement (refHead name) := by
  cases name with
  | none => exact ⟨⟨⟨_, _, rfl, nofun⟩, ⟨[], _, rfl, nofun⟩⟩, readable_refHead h, by simp [refHead]⟩
  | some n => exact ⟨⟨⟨_, _, rfl, nofun⟩, ⟨[_, _], _, rfl, nofun⟩⟩, readable_refHead h, by simp [refHead]⟩

theorem ofHeader_refHead (h : ∀ n ∈ name, n.IsIdentifier) : BlockKind.ofHeader (line (refHead name)) = .ref := by
  have hfirst : firstToken? (line (refHead name)) = some ⟨.word "Ref".toList, 0, 3⟩ := by
    rw [firstToken?, tokens_line (readable_refHead h)]
    cases name <;> rfl
  rw [BlockKind.ofHeader, hfirst]
  rfl

theorem name_refHead (h : ∀ n ∈ name, n.IsIdentifier) :
    (tokens (line (refHead name)))[1]?.bind Lexeme.name? = name := by
  rw [tokens_line (readable_refHead h)]
  cases name <;> rfl

theorem tokensFrom_colon (start : Nat) (rest : Text) :
    tokensFrom start (": ".toList ++ rest) = ⟨.colon, start, start + 1⟩ :: tokensFrom (start + 2) rest := by
  have hread : Token.read ':' ([] ++ ' ' :: rest) = (.colon, ' ' :: rest) := rfl
  have hcolon := tokensFrom_read start (by decide) hread
  refine hcolon.trans (congrArg _ ?_)
  exact tokensFrom_blank _ (by decide) rest

theorem tokens_refHead (h : ∀ n ∈ name, n.IsIdentifier) (rest : Text) :
    ∃ start stop, tokens (line (refHead name) ++ ": ".toList ++ rest) =
      lexemes 0 (refHead name) ++ ⟨.colon, start, stop⟩ ::
        tokensFrom (Text.bytes (line (refHead name) ++ ": ".toList)) rest := by
  have hlast : ∀ p ∈ (refHead name).getLast?, p.EndsBefore (": ".toList ++ rest) := by
    have hcolon : ∀ d t, ": ".toList ++ rest = d :: t → isWordChar d = false := by
      rintro d t ⟨⟩
      decide
    cases name <;> (rintro p ⟨⟩; exact hcolon)
  have htokens := tokensFrom_line_append (readable_refHead h) hlast 0
  rw [tokensFrom_colon, ← List.append_assoc, Nat.zero_add] at htokens
  exact ⟨_, _, by rw [tokens, htokens, Text.bytes_append]; rfl⟩

/-- What stands behind the colon is read as the body. -/
theorem RefStatement.read?_refHead (h : ∀ n ∈ name, n.IsIdentifier) (rest : Text) :
    read? (line (refHead name) ++ ": ".toList ++ rest) =
      (RefBody.ofTokens? (line (refHead name) ++ ": ".toList ++ rest)
        (tokensFrom (Text.bytes (line (refHead name) ++ ": ".toList)) rest)).map (⟨name, ·⟩) := by
  obtain ⟨start, stop, htokens⟩ := tokens_refHead h rest
  have hkeyword : Lexeme.isWord ⟨.word "Ref".toList, 0, 3⟩ "ref" = true := by decide
  rw [read?, htokens]
  cases name with
  | none => exact if_pos hkeyword
  | some n => exact (if_pos hkeyword).trans (if_pos (Lexeme.isIdentifier_word (h n rfl) _ _))

theorem isRefStatement_refHead (h : ∀ n ∈ name, n.IsIdentifier) (rest : Text) :
    isRefStatement (line (refHead name) ++ ": ".toList ++ rest) = true := by
  obtain ⟨start, stop, htokens⟩ := tokens_refHead h rest
  rw [isRefStatement, firstToken?, htokens]
  cases name <;> rfl

/-! ## The statement -/

theorem RefBody.action_shift (n : Nat) (r : RefBody) (key : String) : (r.shift n).action key = r.action key := by
  rw [action, action, shift, List.find?_map, Option.bind_map]
  rfl

theorem Relationship.ofBody_shift (n : Nat) (r : RefBody) (name : Option Text) :
    ofBody (r.shift n) name = ofBody r name := by
  simp only [ofBody, RefBody.action_shift]
  rfl

/-- The blanks in front of a line of code are all that it has more than the body. -/
theorem Text.exists_blanks_trimEnd {t : Text} (h : t.trim ≠ []) :
    ∃ blanks, IsBlanks blanks ∧ ∀ before, trimEnd (before ++ t) = (before ++ blanks) ++ t.trim := by
  obtain ⟨blanks, hblanks, ht⟩ := exists_trimStart_eq t
  refine ⟨blanks, hblanks, fun before => ?_⟩
  conv_lhs => rw [← ht]
  rw [← List.append_assoc, trimEnd_append h]
  rfl

/-- Behind the colon and some blanks, a body is read as it is read alone. -/
theorem RefStatement.read?_spelled (h : ∀ n ∈ name, n.IsIdentifier) {blanks : Text} (hblanks : IsBlanks blanks)
    (body : Text) : read? (line (refHead name) ++ ": ".toList ++ blanks ++ body) =
      (RefBody.read? body).map fun r =>
        ⟨name, r.shift (Text.bytes (line (refHead name) ++ ": ".toList ++ blanks))⟩ := by
  have hshift := tokensFrom_shift (Text.bytes (line (refHead name) ++ ": ".toList ++ blanks)) 0 body
  rw [Nat.add_zero, Text.bytes_append] at hshift
  rw [List.append_assoc _ blanks, read?_refHead h, tokensFrom_blanks _ hblanks, hshift, ← List.append_assoc,
    ← Text.bytes_append, RefBody.ofTokens?_shift, Option.map_map]
  rfl

theorem outline_refStatement (hname : ∀ n ∈ name, n.IsIdentifier) {b : Text} (hb : b.IsCodeLine) :
    ∃ s blanks, IsBlanks blanks ∧ s.text = line (refHead name) ++ ": ".toList ++ blanks ++ b.code.trim ∧
      s.context = .topLevel ∧ s.opens = none ∧
      (Source.ofText (refStatement name b)).outline.statements = [s] ∧
      (Source.ofText (refStatement name b)).outline.blocks = [] := by
  have hhead := isStatement_refHead hname
  have hline : line (refHead name ++ [colon, space]) = line (refHead name) ++ ": ".toList := by simp [text]
  have hwell : ∀ p ∈ refHead name ++ [colon, space], p.WellFormed := by
    intro p hp
    rcases List.mem_append.mp hp with hp | hp
    · exact hhead.readable.wellFormed p hp
    · simp only [List.mem_cons, List.not_mem_nil, or_false] at hp
      rcases hp with rfl | rfl <;> trivial
  have htext : refStatement name b = line (refHead name) ++ ": ".toList ++ b := by rw [line_refHead, refStatement]
  have hlines : (refStatement name b).lines = [refStatement name b] := by
    rw [htext]
    refine Text.lines_of_not_mem fun hfeed => ?_
    rcases List.mem_append.mp hfeed with hfeed | hfeed
    · rcases List.mem_append.mp hfeed with hfeed | hfeed
      · exact hhead.oneLine_line hfeed
      · exact absurd hfeed (by decide)
    · exact hb.oneLine hfeed
  obtain ⟨blanks, hblanks, htrim⟩ := Text.exists_blanks_trimEnd hb.trim_ne
  have hcode : Text.trim (line (refHead name) ++ ": ".toList ++ b.code) =
      line (refHead name) ++ ": ".toList ++ blanks ++ b.code.trim := by
    rw [Text.trim, List.append_assoc, trimStart_line hhead.readable.wellFormed hhead.toHasEnds, ← List.append_assoc,
      htrim]
  have hne : Text.trim (line (refHead name) ++ ": ".toList ++ b.code) ≠ [] := by
    rw [hcode]
    simp
  have hscan := hb.scanChars_line hwell
  rw [hline] at hscan
  obtain ⟨s, hs, hcontext, hopens, hadd⟩ := Outline.addLine_plain hne .empty 1
  have houtline : (Source.ofText (refStatement name b)).outline =
      Outline.empty.read 1 (refStatement name b).lines := rfl
  rw [hlines, htext, Outline.read_code hscan hb.closed, hadd] at houtline
  exact ⟨s, blanks, hblanks, hs.trans hcode, hcontext, hopens, by rw [htext, houtline]; rfl,
    by rw [htext, houtline]; rfl⟩

theorem spells_refStatement (hname : ∀ n ∈ name, n.IsIdentifier) {b : Text} (hb : b.IsCodeLine) :
    (Source.ofText (refStatement name b)).Spells name b.code.trim := by
  obtain ⟨s, blanks, hblanks, htext, hcontext, hopens, hstatements, hblocks⟩ := outline_refStatement hname hb
  have hread := RefStatement.read?_spelled hname hblanks b.code.trim
  have hword : isRefStatement s.text = true := by
    rw [htext, List.append_assoc]
    exact isRefStatement_refHead hname _
  rw [← htext] at hread
  refine .of_statements [] (by simp [Outline.tables, hblocks]) hstatements nofun ?_ ?_
  · simp only [Outline.relationship?, hopens, hcontext, hread, ↓reduceIte, Option.map_map, Function.comp_def,
      Relationship.ofBody_shift]
  · cases hbody : RefBody.read? b.code.trim <;> simp [referenceProblem?, hopens, hcontext, hword, hread, hbody]

/-! ## The block -/

theorem outline_refBlock (hname : ∀ n ∈ name, n.IsIdentifier) {b : Text} (hb : b.IsCodeLine) :
    ∃ header s block, header.text = line (refHead name) ∧ s.text = b.code.trim ∧ block.kind = .ref ∧
      Outline.AddsBlock .empty (Source.ofText (refBlock name b)).outline header [s] block := by
  have hhead := isStatement_refHead hname
  have hlines : (refBlock name b).lines = [line (refHead name) ++ [' ', '\x7b'], b, ['\x7d']] := by
    have hblock : refBlock name b =
        (line (refHead name) ++ [' ', '\x7b']) ++ '\n' :: (b ++ '\n' :: ['\x7d']) := by
      simp [refBlock, ← line_refHead]
    rw [hblock, Text.lines_append_feed, Text.lines_append_feed, Text.lines_of_not_mem hb.oneLine,
      Text.lines_of_not_mem (oneLine_opening hhead.oneLine_line)]
    rfl
  obtain ⟨header, htext, hcontext, hopens, hinside⟩ := Outline.inside_opening Outline.consistent_empty rfl hhead 1
  obtain ⟨s, hs, hscontext, hsopens, hbody⟩ := hinside.addLine_plain hb.trim_ne 2
  obtain ⟨block, hadds, hkind⟩ := hbody.addsBlock hcontext hopens (by simpa using ⟨hscontext, hsopens⟩) 3
  refine ⟨header, s, block, htext, hs, hkind.trans (ofHeader_refHead hname), ?_⟩
  have houtline : (Source.ofText (refBlock name b)).outline = Outline.empty.read 1 (refBlock name b).lines := rfl
  have hscan : scanChars .code (dropReturn b) = (b.code.map .plain, (scanChars .code (dropReturn b)).2) :=
    Prod.ext hb.glyphs_eq rfl
  rw [houtline, hlines, Outline.read_opening hhead, Outline.read_code hscan hb.closed, Outline.read_closing]
  exact hadds

theorem spells_refBlock (hname : ∀ n ∈ name, n.IsIdentifier) {b : Text} (hb : b.IsCodeLine) :
    (Source.ofText (refBlock name b)).Spells name b.code.trim := by
  obtain ⟨header, s, block, hheader, hs, hkind, hadds⟩ := outline_refBlock hname hb
  have hstatements : (Source.ofText (refBlock name b)).outline.statements = [header, s] := hadds.statements_eq
  have hblocks : (Source.ofText (refBlock name b)).outline.blocks = [block] := hadds.blocks_eq
  have hcontext : s.context = .ref 0 := by
    rw [hadds.context_body s List.mem_cons_self, hkind]
    rfl
  have hname' : (Source.ofText (refBlock name b)).outline.refBlockName 0 = name := by
    rw [Outline.refBlockName, hblocks]
    simp only [List.getElem?_cons_zero, Option.bind_eq_bind, Option.bind_some, hadds.header?_eq, hheader]
    exact name_refHead hname
  have hopens := hadds.opens_body s List.mem_cons_self
  refine .of_statements [header] (by simp [Outline.tables, hblocks, hkind]) hstatements ?_ ?_ ?_
  · simp [Outline.relationship?, referenceProblem?, hadds.opens_header, hadds.context_header]
  · simp [Outline.relationship?, hopens, hcontext, hs, hname']
  · cases hbody : RefBody.read? b.code.trim <;> simp [referenceProblem?, hcontext, hs, hbody]

theorem Source.Spells.relationships_eq_map {t body : Text} (h : (Source.ofText t).Spells name body) :
    (Schema.ofText t).relationships =
      (((RefBody.read? body).map fun r => Relationship.ofBody r name).toList).map (·.resolve []) := by
  have hwritten : (Schema.ofText t).relationships = ((Source.ofText t).outline.tables.flatMap Prod.snd ++
      (Source.ofText t).outline.standaloneRelationships).map
        (·.resolve ((Source.ofText t).outline.tables.map Prod.fst)) := rfl
  rw [hwritten, h.tables_eq, h.relationships_eq]
  rfl

/-- The two spellings of a reference declare the same relationship, which has the name that stands behind `Ref`, or
are both warned of. -/
theorem reference_spellings (name : Option Text) (hname : ∀ n ∈ name, n.IsIdentifier) {b : Text} (hb : b.IsCodeLine) :
    (Schema.ofText (refStatement name b)).relationships = (Schema.ofText (refBlock name b)).relationships ∧
      (Schema.ofText (refStatement name b)).relationships.length ≤ 1 ∧
      (∀ r ∈ (Schema.ofText (refStatement name b)).relationships, r.name = name) ∧
      (checkReferences (Source.ofText (refStatement name b))).length =
        (checkReferences (Source.ofText (refBlock name b))).length := by
  have hstatement := spells_refStatement hname hb
  have hblock := spells_refBlock hname hb
  have heq := hstatement.relationships_eq_map
  refine ⟨heq.trans hblock.relationships_eq_map.symm, ?_, ?_,
    hstatement.length_warnings.trans hblock.length_warnings.symm⟩
  · rw [heq, List.length_map]
    exact Option.length_toList_le
  · rw [heq]
    cases RefBody.read? b.code.trim with
    | none => simp
    | some r => simp [Relationship.resolve, Relationship.ofBody]

/-- A reference between comments, with a name of two words and of characters of several bytes. -/
def commentedReference : Text := "/* größe */ a.'x é' > b.y [delete: cascade] // ok".toList

theorem reference_spellings_commentedReference :
    (∀ n ∈ some "mine".toList, Text.IsIdentifier n) ∧ commentedReference.IsCodeLine ∧
      (Schema.ofText (refBlock (some "mine".toList) commentedReference)).relationships.length = 1 ∧
      (Schema.ofText (refStatement (some "mine".toList) commentedReference)).relationships =
        (Schema.ofText (refBlock (some "mine".toList) commentedReference)).relationships := by
  have hname : ∀ n ∈ some "mine".toList, Text.IsIdentifier n := by
    rintro n ⟨⟩
    decide
  have hb : commentedReference.IsCodeLine :=
    ⟨by decide, by decide +kernel, by decide +kernel, by decide +kernel, by decide +kernel⟩
  exact ⟨hname, hb, by decide +kernel, (reference_spellings _ hname hb).1⟩

end SchemaDiagram
