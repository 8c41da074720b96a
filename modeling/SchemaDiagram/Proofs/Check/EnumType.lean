import SchemaDiagram.Proofs.Check.TableLine
import SchemaDiagram.Proofs.Grammar.Name
import SchemaDiagram.Proofs.Source.Span
import SchemaDiagram.Proofs.Text.Blank

/-! # Enums as types

The name of an enum is put together from the parts that its header spells, without their quotes. The type of a field
is taken as written, and double quotes are dropped at both of its ends only. The two agree on bare words with dots in
between, and on one string in double quotes. A name spelled in another way, such as one with quotes around its last
part only, is no type that is known, even right behind its own enum.
-/
namespace SchemaDiagram

open Text (IsBlanks)

/-! ## The text of a name -/

/-- The token is a part of a name, a word or a string. -/
def Token.IsPart (token : Token) (part : Text) : Prop := token = .word part ∨ token = .str part

theorem Lexeme.isPart_of_name? {x : Lexeme} {part : Text} (h : x.name? = some part) : x.token.IsPart part := by
  simp only [name?] at h
  split at h
  · next hword => exact .inl (hword.trans (congrArg Token.word (Option.some.inj h)))
  · next hstr => exact .inr (hstr.trans (congrArg Token.str (Option.some.inj h)))
  · cases h

/-- How a name with the given parts is written in front of `behind`. Blanks may stand behind a dot, but not in front
of one. -/
inductive NameText (behind : Text) : Text → List Text → Prop
  | single {c body token part} (hread : Token.read c (body ++ behind) = (token, behind)) (hpart : token.IsPart part) :
      NameText behind (c :: body) [part]
  | dotted {c body blanks written token part parts} (hb : IsBlanks blanks)
      (hread : Token.read c (body ++ '.' :: (blanks ++ (written ++ behind))) =
        (token, '.' :: (blanks ++ (written ++ behind))))
      (hpart : token.IsPart part) (h : NameText behind written parts) :
      NameText behind (c :: (body ++ '.' :: (blanks ++ written))) (part :: parts)

theorem Token.eq_of_read_eq_dot {c : Char} {rest after : Text} (h : read c rest = (.dot, after)) :
    c = '.' ∧ rest = after := by
  unfold read at h
  split at h <;> simp_all
  split at h <;> cases congrArg Prod.fst h

namespace Spans

/-- The tokens of a name stand where the name is written. -/
theorem exists_nameText {start : Nat} {t : Text} {xs after : List Lexeme} {parts : List Text}
    (h : Spans start t (xs ++ after)) (hname : NameTokens xs parts) :
    ∃ blanks written behind, t = blanks ++ (written ++ behind) ∧ NameText behind written parts ∧ IsBlanks blanks ∧
      xs.head?.map Lexeme.start = some (start + Text.bytes blanks) ∧
      xs.getLast?.map Lexeme.stop = some (start + Text.bytes (blanks ++ written)) := by
  induction hname generalizing start t with
  | single hx =>
      cases h with
      | @token _ blanks c body rest _ _ hb hc hread =>
          exact ⟨blanks, c :: body, rest, rfl, .single hread (Lexeme.isPart_of_name? hx), hb, rfl, rfl⟩
  | @dotted x dot xs _ _ hx hdot hjoins hxs ih =>
      cases h with
      | @token _ blanks c body _ _ _ hb hc hread hrest =>
      cases hrest with
      | @token _ between c' body' rest token _ hb' hc' hread' hrest =>
          obtain rfl : between = [] := Text.eq_nil_of_bytes_eq_zero (by simpa using hjoins)
          obtain rfl : token = .dot := hdot
          obtain ⟨rfl, hbody⟩ := Token.eq_of_read_eq_dot hread'
          obtain rfl : body' = [] := List.append_left_eq_self.mp hbody
          obtain ⟨blanks', written, behind, rfl, htext, hblanks', -, hlast⟩ := ih hrest
          obtain ⟨y, tail, -, rfl, -⟩ := hxs.exists_head
          refine ⟨blanks, c :: (body ++ '.' :: (blanks' ++ written)), behind, by simp,
            .dotted hblanks' hread (Lexeme.isPart_of_name? hx) htext, hb, rfl, ?_⟩
          simp only [List.getLast?_cons_cons, hlast, Text.bytes_append, Text.bytes_cons, Text.bytes_nil]
          congr 1
          omega

end Spans

/-- The name of an enum stands in the header between the bytes of the name. -/
theorem nameText_of_enumHeader? {source : Text} {name : Name} (h : enumHeader? source = some name) :
    ∃ behind, NameText behind (source.slice name.start name.stop) name.parts := by
  simp only [enumHeader?] at h
  split at h
  · next x rest htokens =>
      obtain ⟨-, h⟩ := Option.ite_none_right_eq_some.mp h
      obtain ⟨⟨_, after⟩, hread, rfl⟩ := Option.map_eq_some_iff.mp h
      obtain ⟨xs, rfl, hspelled⟩ := Name.read?_eq_some_iff.mp hread
      have hspans := spans_tokens source
      rw [htokens] at hspans
      cases hspans with
      | @token _ blanks c body _ _ _ _ _ _ hrest =>
          obtain ⟨between, written, behind, rfl, htext, -, hstart, hstop⟩ := hrest.exists_nameText hspelled.tokens
          have hcut : blanks ++ (c :: body ++ (between ++ (written ++ behind))) =
              (blanks ++ c :: body ++ between) ++ (written ++ behind) := by simp
          have hstart := Option.some.inj (hspelled.start_eq.symm.trans hstart)
          have hstop := Option.some.inj (hspelled.stop_eq.symm.trans hstop)
          refine ⟨behind, ?_⟩
          rw [hcut, hstart, hstop, Nat.zero_add, ← Text.bytes_append, Text.bytes_append between, ← Nat.add_assoc,
            ← Text.bytes_append, Text.slice_append]
          exact htext
  · cases h

/-! ## Plain names -/

/-- A text that both readings take for a name with the given value: bare words with dots in between, or one string in
double quotes with nothing inside that a type is cut at. -/
inductive PlainName : Text → Text → Prop
  | bare {value : Text} (h : ∀ c ∈ value, isWordChar c = true ∨ c = '.') : PlainName value value
  | quoted {value : Text} (h : ∀ c ∈ value, c ∉ ['"', '\\', '(', '[']) : PlainName ('"' :: (value ++ ['"'])) value

/-- A part of bare words is a word, which is its own value. -/
theorem Token.IsPart.eq_of_bare {c : Char} {body rest part : Text} {token : Token} (hpart : token.IsPart part)
    (hread : Token.read c (body ++ rest) = (token, rest)) (hc : isWordChar c = true ∨ c = '.') : c :: body = part := by
  rcases hc with hc | rfl
  · rcases hpart with rfl | rfl
    · exact (Token.eq_of_read_eq_word hread).1
    · rw [Token.read_of_isWordChar hc] at hread
      cases congrArg Prod.fst hread
  · have hdot : Token.dot = token := congrArg Prod.fst hread
    rcases hpart with rfl | rfl <;> cases hdot

theorem readQuoted_of_forall {quote : Char} {content : Text} (h : ∀ c ∈ content, c ≠ quote ∧ c ≠ '\\') (rest : Text)
    (hquote : quote ≠ '\\') : readQuoted quote (content ++ quote :: rest) = (content, rest) := by
  induction content with
  | nil => simp [readQuoted, hquote]
  | cons c content ih =>
      obtain ⟨hc, hcontent⟩ := List.forall_mem_cons.mp h
      simp [readQuoted, hc.1, hc.2, ih hcontent]

namespace NameText

variable {behind written : Text} {parts : List Text}

theorem ne_nil (h : NameText behind written parts) : parts ≠ [] := by
  cases h <;> exact List.cons_ne_nil _ _

theorem joinWith_of_bare (h : NameText behind written parts) (hbare : ∀ c ∈ written, isWordChar c = true ∨ c = '.') :
    Text.joinWith '.' parts = written := by
  induction h with
  | single hread hpart => exact (hpart.eq_of_bare hread (hbare _ List.mem_cons_self)).symm
  | @dotted c body blanks written token part parts hb hread hpart h ih =>
      obtain rfl := hpart.eq_of_bare hread (hbare _ List.mem_cons_self)
      have hblanks : blanks = [] := by
        refine List.eq_nil_iff_forall_not_mem.mpr fun d hd => ?_
        have hblank := hb d hd
        rcases hbare d (by simp [hd]) with hword | rfl
        · rw [isBlank_of_isWordChar hword] at hblank
          cases hblank
        · exact absurd hblank (by decide)
      subst hblanks
      have hvalue := ih fun d hd => hbare d (by simp [hd])
      obtain ⟨next, more, rfl⟩ := List.exists_cons_of_ne_nil h.ne_nil
      simp only [Text.joinWith, hvalue, List.cons_append, List.nil_append]

theorem eq_of_quoted {content : Text} (h : NameText behind ('"' :: (content ++ ['"'])) parts)
    (hcontent : ∀ c ∈ content, c ≠ '"' ∧ c ≠ '\\') : parts = [content] := by
  have hstring : Token.read '"' (content ++ '"' :: behind) = (.str content, behind) := by
    simp only [Token.read, readQuoted_of_forall hcontent behind (by decide)]
  generalize hwritten : '"' :: (content ++ ['"']) = written at h
  cases h with
  | single hread hpart =>
      obtain ⟨rfl, rfl⟩ := List.cons.inj hwritten
      rw [List.append_assoc, List.singleton_append, hstring] at hread
      obtain rfl := (Prod.mk.inj hread).1
      rcases hpart with hpart | hpart <;> cases hpart
      rfl
  | @dotted c body blanks written token part parts hb hread =>
      -- The string ends with the name, so that no dot follows.
      obtain ⟨rfl, hbody⟩ := List.cons.inj hwritten
      have hrest : body ++ '.' :: (blanks ++ (written ++ behind)) = content ++ '"' :: behind := by
        simpa using congrArg (· ++ behind) hbody.symm
      rw [hrest, hstring] at hread
      have hlength := congrArg (List.length ∘ Prod.snd) hread
      simp at hlength
      omega

end NameText

theorem dropWhile_quote {t : Text} (h : '"' ∉ t) : t.dropWhile (· == '"') = t :=
  List.dropWhile_eq_self_iff.mpr fun hpos hquote => h (eq_of_beq hquote ▸ List.getElem_mem hpos)

namespace PlainName

variable {written value : Text}

theorem joinWith_eq (h : PlainName written value) {behind : Text} {parts : List Text}
    (hname : NameText behind written parts) : Text.joinWith '.' parts = value := by
  cases h with
  | bare hbare => exact hname.joinWith_of_bare hbare
  | quoted hquoted =>
      rw [hname.eq_of_quoted fun c hc => by
        have hmarks := hquoted c hc
        simp only [List.mem_cons, not_or] at hmarks
        exact ⟨hmarks.1, hmarks.2.1⟩]
      rfl

theorem takeWhile_eq (h : PlainName written value) : (written.takeWhile fun c => c != '(' && c != '[') = written := by
  refine List.takeWhile_eq_self_iff.mpr fun c hc => ?_
  cases h with
  | bare hbare =>
      rcases hbare c hc with hword | rfl
      · have hmark := not_mem_markChars_of_isWordChar hword
        simp_all [markChars]
      · decide
  | quoted hquoted =>
      simp only [List.mem_cons, List.mem_append, List.not_mem_nil, or_false] at hc
      rcases hc with rfl | hc | rfl
      · decide
      · have hmarks := hquoted c hc
        simp_all
      · decide

theorem trim_eq (h : PlainName written value) : written.trim = written := by
  cases h with
  | bare hbare =>
      refine Text.trim_of_forall fun c hc => ?_
      rcases hbare c hc with hword | rfl
      · exact isBlank_of_isWordChar hword
      · decide
  | quoted hquoted =>
      have hquote : Text.isBlank '"' = false := by decide
      have hstart : Text.trimStart ('"' :: (value ++ ['"'])) = '"' :: (value ++ ['"']) := by
        simp [Text.trimStart, hquote]
      rw [Text.trim, hstart, ← List.cons_append, Text.trimEnd_concat hquote]

theorem quote_not_mem (h : PlainName written value) : '"' ∉ value := by
  intro hmem
  cases h with
  | bare hbare => exact absurd (hbare _ hmem) (by decide)
  | quoted hquoted => exact absurd (hquoted _ hmem) (by decide)

/-- Quotes are dropped at both ends of the type. -/
theorem baseType_eq {field : FieldHead} (h : PlainName field.dataType value) : field.baseType = Text.lower value := by
  have hfront := dropWhile_quote h.quote_not_mem
  have hback := dropWhile_quote (mt List.mem_reverse.mp h.quote_not_mem)
  simp only [FieldHead.baseType, h.takeWhile_eq, h.trim_eq]
  generalize field.dataType = written at h
  cases h with
  | bare => rw [hfront, hback, List.reverse_reverse]
  | quoted hquoted =>
      cases value with
      | nil => rfl
      | cons c rest =>
          have hc : (c == '"') = false := by
            have hmarks := hquoted c List.mem_cons_self
            simp_all
          rw [List.dropWhile_cons_of_pos rfl, List.cons_append, List.dropWhile_cons_of_neg (by simp [hc]),
            ← List.cons_append, List.reverse_append, List.reverse_singleton, List.singleton_append,
            List.dropWhile_cons_of_pos rfl, hback, List.reverse_reverse]

end PlainName

/-! ## Enums among the known types -/

/-- An enum of the outline whose header spells its name as written. -/
def Outline.DeclaresEnum (o : Outline) (written : Text) : Prop :=
  ∃ b ∈ o.blocks, b.kind = .enum ∧ ∃ header name, o.header? b = some header ∧ enumHeader? header.text = some name ∧
    header.text.slice name.start name.stop = written

theorem PlainName.lower_mem_enumNames {written value : Text} (h : PlainName written value) {o : Outline}
    (hdeclares : o.DeclaresEnum written) : Text.lower value ∈ enumNames o := by
  obtain ⟨b, hb, hkind, header, name, hheader, hname, rfl⟩ := hdeclares
  obtain ⟨behind, htext⟩ := nameText_of_enumHeader? hname
  refine List.mem_filterMap.mpr ⟨b, List.mem_filter.mpr ⟨hb, decide_eq_true hkind⟩, ?_⟩
  have hvalue : name.value = value := h.joinWith_eq htext
  simp [hheader, hname, hvalue]

namespace LineReport

/-- A type that is written like an enum is known if both readings take it for the same name. -/
theorem unknownType?_of_declares {o : Outline} {s : Statement} {field : FieldHead}
    (hdeclares : o.DeclaresEnum field.dataType) (hplain : ∃ value, PlainName field.dataType value) :
    unknownType? (enumNames o) s field = none := by
  obtain ⟨value, hplain⟩ := hplain
  have hmem : field.baseType ∈ enumNames o := hplain.baseType_eq ▸ hplain.lower_mem_enumNames hdeclares
  have hknown : isKnownType (enumNames o) field.baseType = true := by simp [isKnownType, hmem]
  simp [unknownType?, hknown]

end LineReport

/-- A field whose type is written like the name of an enum has a known type, wherever the enum stands: the name is
made up of bare words with dots in between, or it is one string in double quotes without escapes and brackets. -/
theorem declared_enum_known (text : Text) :
    let source := Source.ofText text
    let enums := enumNames source.outline
    LineReport.Covers source (LineReport.ofStatement enums) ∧
    ∀ s ∈ tableStatements source.outline, ∀ field, FieldHead.read? s.text = some field →
      source.outline.DeclaresEnum field.dataType → (∃ value, PlainName field.dataType value) →
        (LineReport.ofStatement enums s).unknownType = none := by
  intro source enums
  refine ⟨LineReport.covers source, fun s _ field hfield hdeclares hplain => ?_⟩
  simp only [LineReport.ofStatement, hfield, Option.bind_some]
  exact LineReport.unknownType?_of_declares hdeclares hplain

def enumBehindTable : Text :=
  "Table t \x7b\n state \"order state\" [not null]\n\x7d\nEnum \"order state\" \x7b\n new\n\x7d".toList

theorem declared_enum_known_enumBehindTable :
    let o := (Source.ofText enumBehindTable).outline
    let s : Statement := ⟨2, "state \"order state\" [not null]".toList, 2, 32, .table 0, none⟩
    let written := "\"order state\"".toList
    s ∈ tableStatements o ∧ (FieldHead.read? s.text).map FieldHead.dataType = some written ∧ o.DeclaresEnum written ∧
      (LineReport.ofStatement (enumNames o) s).unknownType = none := by
  intro o s written
  have hs : s ∈ tableStatements o := by decide +kernel
  have hread : (FieldHead.read? s.text).map FieldHead.dataType = some written := by decide +kernel
  have hdeclares : o.DeclaresEnum written := by
    refine ⟨⟨.enum, some 2, 4, 20, true, [3]⟩, by decide +kernel, rfl,
      ⟨4, "Enum \"order state\"".toList, 1, 19, .topLevel, some 1⟩, ⟨["order state".toList], 5, 18⟩,
      by decide +kernel, by decide +kernel, by decide +kernel⟩
  obtain ⟨field, hfield, htype⟩ := Option.map_eq_some_iff.mp hread
  have hinside : "order state".toList.all (· ∉ ['"', '\\', '(', '[']) = true := by decide +kernel
  have hplain : PlainName ('"' :: ("order state".toList ++ ['"'])) "order state".toList :=
    .quoted fun c hc => of_decide_eq_true (List.all_eq_true.mp hinside c hc)
  have hwritten : '"' :: ("order state".toList ++ ['"']) = field.dataType := by
    rw [htype]
    decide +kernel
  refine ⟨hs, hread, hdeclares, ?_⟩
  exact (declared_enum_known enumBehindTable).2 s hs field hfield (htype ▸ hdeclares) ⟨_, hwritten ▸ hplain⟩

def quotedPart : Text := "Enum public.\"status\" \x7b\n on\n\x7d\nTable t \x7b\n f public.\"status\"\n\x7d".toList

/-- Quotes around the last part alone stay inside the type, and the enum of that very name is not found. -/
theorem quotedPart_unknown :
    (validate quotedPart).diagnostics =
        [⟨.warning, 5, 4, 19, (Problem.unknownType "public.\"status\"".toList none).message⟩] ∧
      ¬∀ text : Text, ∀ s ∈ tableStatements (Source.ofText text).outline, ∀ field, FieldHead.read? s.text = some field →
        (Source.ofText text).outline.DeclaresEnum field.dataType →
          (LineReport.ofStatement (enumNames (Source.ofText text).outline) s).unknownType = none := by
  refine ⟨by decide +kernel, fun h => ?_⟩
  have hread : (FieldHead.read? "f public.\"status\"".toList).map FieldHead.dataType =
      some "public.\"status\"".toList := by decide +kernel
  obtain ⟨field, hfield, htype⟩ := Option.map_eq_some_iff.mp hread
  have hdeclares : (Source.ofText quotedPart).outline.DeclaresEnum "public.\"status\"".toList := by
    refine ⟨⟨.enum, some 0, 1, 22, true, [1]⟩, by decide +kernel, rfl,
      ⟨1, "Enum public.\"status\"".toList, 1, 21, .topLevel, some 0⟩, ⟨["public".toList, "status".toList], 5, 20⟩,
      by decide +kernel, by decide +kernel, by decide +kernel⟩
  have hnone := h quotedPart ⟨5, "f public.\"status\"".toList, 2, 19, .table 1, none⟩ (by decide +kernel) field hfield
    (htype ▸ hdeclares)
  exact absurd hnone (by decide +kernel)

end SchemaDiagram
