import SchemaDiagram.Grammar.Header
import SchemaDiagram.Grammar.Field
import SchemaDiagram.Grammar.Reference
import SchemaDiagram.Schema.Extract
import SchemaDiagram.Proofs.Writing.Setting

/-! # Written declarations

What the readers of fields, headers and references find in lines that are written from the parts they
look for.
-/
namespace SchemaDiagram

open Segment

def Text.IsIdentifier (w : Text) : Prop :=
  (w.head?.any fun c => Text.isLetter c || c == '_') = true ∧ w.all isWordChar = true

instance (w : Text) : Decidable w.IsIdentifier := inferInstanceAs (Decidable (_ ∧ _))

theorem Text.IsIdentifier.isWord {w : Text} (h : w.IsIdentifier) : w.IsWord := by
  refine ⟨?_, h.2⟩
  rintro rfl
  exact Bool.false_ne_true h.1

theorem Lexeme.isIdentifier_word {w : Text} (h : w.IsIdentifier) (start stop : Nat) :
    Lexeme.isIdentifier ⟨.word w, start, stop⟩ = true := by
  cases w with
  | nil => exact absurd h.1 Bool.false_ne_true
  | cons c t => exact h.1

theorem Lexeme.isIdentifier_str {s : Text} (h : s ≠ []) (start stop : Nat) :
    Lexeme.isIdentifier ⟨.str s, start, stop⟩ = true := by
  obtain ⟨c, t, rfl⟩ := List.exists_cons_of_ne_nil h
  rfl

/-! ## Names -/

theorem Name.readParts_eq {rest : List Lexeme} (h : ∀ x ∈ rest.head?, x.token ≠ .dot) (stop : Nat) :
    Name.readParts stop rest = ([], stop, rest) := by
  match rest with
  | [] => rfl
  | [x] => rfl
  | x :: y :: more =>
      have hx : x.token ≠ .dot := h x rfl
      simp [Name.readParts, hx]

theorem Name.read?_str (content : Text) (start stop : Nat) {rest : List Lexeme}
    (h : ∀ x ∈ rest.head?, x.token ≠ .dot) :
    Name.read? (⟨.str content, start, stop⟩ :: rest) = some (⟨[content], start, stop⟩, rest) := by
  simp [Name.read?, Lexeme.name?, Name.readParts_eq h]

def Segment.fieldName (table field : Text) : List Segment := [str table, dot, str field]

theorem FieldName.read?_lexemes (table field : Text) (start : Nat) (rest : List Lexeme)
    (h : ∀ x ∈ rest.head?, x.token ≠ .dot) :
    ∃ n, FieldName.read? (lexemes start (fieldName table field) ++ rest) = some (n, rest) ∧
      n.table = table ∧ n.field = field := by
  simp [fieldName, lexemes, token?, FieldName.read?, Name.read?, Name.readParts, Lexeme.name?, Name.readParts_eq h,
    Text.joinWith]

/-! ## Settings behind a line -/

theorem lexemes_bracketed (start : Nat) (item : List Segment) (more : List (List Segment)) :
    lexemes start (bracketed (item :: more)) =
      ⟨.openBracket, start + 1, start + 2⟩ :: lexemes (start + 2) (items (item :: more)) := by
  rfl

theorem read_bracketed {item : List Segment} {more : List (List Segment)} (h : ∀ i ∈ item :: more, IsItem i)
    (before : Text) : ∃ found, found.map Setting.text = (item :: more).map line ∧
      SettingList.read (before ++ line (bracketed (item :: more)))
        (lexemes (before.bytes + 2) (items (item :: more))) = ⟨found, [], true⟩ := by
  obtain ⟨found, hread, htexts⟩ := read_items h (before ++ [' ', '['])
  refine ⟨found, htexts, ?_⟩
  rw [← hread]
  simp [bracketed, text, Text.bytes_append]
  rfl

/-! ## Fields -/

theorem FieldHead.typeEnd_nil (stop : Nat) : typeEnd stop [] = ⟨stop, [], false⟩ := by
  rw [typeEnd]

/-- An opening bracket behind a space does not belong to the type. -/
theorem FieldHead.typeEnd_openBracket {stop start last : Nat} (h : start ≠ stop) (rest : List Lexeme) :
    typeEnd stop (⟨.openBracket, start, last⟩ :: rest) = ⟨stop, ⟨.openBracket, start, last⟩ :: rest, false⟩ := by
  rw [typeEnd.eq_def]
  cases rest with
  | nil => rfl
  | cons y after => simp [h]

theorem trimEnd_of_isIdentifier {w : Text} (h : w.IsIdentifier) : Text.trimEnd w = w := by
  have ht : Text.trimEnd (line [word w]) = line [word w] :=
    trimEnd_line (by simpa using (show (word w).WellFormed from h.isWord)) ⟨⟨_, _, rfl, nofun⟩, ⟨[], _, rfl, nofun⟩⟩
  simpa [text] using ht

theorem readable_fieldLine (name : Text) {type : Text} {list : List (List Segment)} (htype : type.IsIdentifier)
    (hlist : ∀ item ∈ list, Readable item) : Readable ([str name, space, word type] ++ bracketed list) := by
  refine Readable.append ?_ (readable_bracketed hlist) (isBreak_head?_bracketed list)
  exact ((readable_singleton (p := word type) htype.isWord).cons (p := space) trivial).cons (p := str name) trivial

theorem FieldHead.read?_line {name type : Text} {list : List (List Segment)} (hname : name ≠ [])
    (htype : type.IsIdentifier) (hlist : ∀ item ∈ list, IsItem item ∧ Readable item) :
    ∃ head, FieldHead.read? (line ([str name, space, word type] ++ bracketed list)) = some head ∧
      head.name = name ∧ head.dataType = type ∧ head.settings.map Setting.text = list.map line := by
  have hread := readable_fieldLine name htype fun item hi => (hlist item hi).2
  obtain ⟨before, hbefore⟩ : ∃ before, before = Text.quote name ++ [' '] := ⟨_, rfl⟩
  have hsource : line ([str name, space, word type] ++ bracketed list) = before ++ (type ++ line (bracketed list)) := by
    simp [text, hbefore]
  have htokens : tokens (line ([str name, space, word type] ++ bracketed list)) =
      ⟨.str name, 0, (Text.quote name).bytes⟩ :: ⟨.word type, before.bytes, (before ++ type).bytes⟩ ::
        lexemes (before ++ type).bytes (bracketed list) := by
    rw [tokens_line hread]
    simp [lexemes, token?, text, hbefore, Nat.add_assoc]
  rw [hsource] at htokens ⊢
  have hslice := Text.slice_append before type (line (bracketed list))
  rw [← Text.bytes_append] at hslice
  cases list with
  | nil =>
      generalize before ++ (type ++ line (bracketed [])) = source at *
      simp only [FieldHead.read?, htokens, lexemes, bracketed, Lexeme.isIdentifier_str hname,
        Lexeme.isIdentifier_word htype, typeEnd_nil, Bool.and_self, ↓reduceIte, Option.some.injEq, exists_eq_left']
      exact ⟨rfl, (congrArg Text.trimEnd hslice).trans (trimEnd_of_isIdentifier htype), rfl⟩
  | cons item more =>
      obtain ⟨found, htexts, hfound⟩ := read_bracketed (fun i hi => (hlist i hi).1) (before ++ type)
      rw [List.append_assoc] at hfound
      rw [lexemes_bracketed] at htokens
      simp only [FieldHead.read?, htokens, Lexeme.isIdentifier_str hname, Lexeme.isIdentifier_word htype,
        typeEnd_openBracket (Nat.succ_ne_self _), hfound, Bool.and_self, ↓reduceIte, Option.some.injEq, exists_eq_left']
      exact ⟨rfl, (congrArg Text.trimEnd hslice).trans (trimEnd_of_isIdentifier htype), htexts⟩

/-! ## Headers -/

def Segment.headline (keyword : String) (name : Text) : List Segment := [word keyword.toList, space, str name]

theorem readable_headline {keyword : String} (h : Text.IsWord keyword.toList) (name : Text) :
    Readable (headline keyword name) := by
  have hname := (readable_singleton (p := str name) trivial).cons (p := space) trivial
  exact (readable_singleton (p := word keyword.toList) h).append hname (by simp [IsBreak])

theorem readable_tableLine (name : Text) {list : List (List Segment)} (hlist : ∀ item ∈ list, Readable item) :
    Readable (headline "Table" name ++ bracketed list) :=
  (readable_headline (by decide) name).append (readable_bracketed hlist) (isBreak_head?_bracketed list)

theorem TableHeader.readName_str {name : Text} (hname : name ≠ []) (start stop : Nat) {rest : List Lexeme}
    (h : ∀ x ∈ rest.head?, x.token ≠ .dot) :
    readName (⟨.str name, start, stop⟩ :: rest) = (some ⟨[name], start, stop⟩, rest) := by
  have has : Lexeme.isWord ⟨.str name, start, stop⟩ "as" = false := rfl
  simp [readName, Lexeme.isIdentifier_str hname, has, Name.read?_str name start stop h]

theorem TableHeader.read?_line {name : Text} {list : List (List Segment)} (hname : name ≠ [])
    (hlist : ∀ item ∈ list, IsItem item ∧ Readable item) :
    ∃ header n, TableHeader.read? (line (headline "Table" name ++ bracketed list)) = some header ∧
      header.name = some n ∧ n.value = name ∧ header.otherName = none ∧
      header.settings.map Setting.text = list.map line := by
  have hread := readable_tableLine name fun item hi => (hlist item hi).2
  obtain ⟨before, hbefore⟩ : ∃ before, before = line (headline "Table" name) := ⟨_, rfl⟩
  obtain ⟨start, stop, htokens⟩ : ∃ start stop, tokens (line (headline "Table" name ++ bracketed list)) =
      ⟨.word "Table".toList, 0, 5⟩ :: ⟨.str name, start, stop⟩ :: lexemes before.bytes (bracketed list) := by
    rw [tokens_line hread, lexemes_append, hbefore, Nat.zero_add]
    exact ⟨_, _, rfl⟩
  have hword : Lexeme.isWord ⟨.word "Table".toList, 0, 5⟩ "table" = true := by decide
  rw [line_append, ← hbefore] at htokens ⊢
  cases list with
  | nil =>
      generalize before ++ line (bracketed []) = source at *
      have hend : ∀ x ∈ (lexemes before.bytes (bracketed [])).head?, x.token ≠ .dot := by simp [bracketed, lexemes]
      refine ⟨⟨0, 5, some ⟨[name], start, stop⟩, none, []⟩, ⟨[name], start, stop⟩, ?_, rfl, rfl, rfl, rfl⟩
      simp only [TableHeader.read?, htokens, hword, ↓reduceIte, readName_str hname _ _ hend]
      rfl
  | cons item more =>
      obtain ⟨found, htexts, hfound⟩ := read_bracketed (fun i hi => (hlist i hi).1) before
      rw [lexemes_bracketed] at htokens
      have hend : ∀ x ∈ (lexemes before.bytes (bracketed (item :: more))).head?, x.token ≠ .dot := by
        simp [lexemes_bracketed]
      rw [lexemes_bracketed] at hend
      have hnot : ∀ start stop, Lexeme.isWord ⟨.openBracket, start, stop⟩ "as" = false := fun _ _ => rfl
      refine ⟨⟨0, 5, some ⟨[name], start, stop⟩, none, found⟩, ⟨[name], start, stop⟩, ?_, rfl, rfl, rfl, htexts⟩
      simp only [TableHeader.read?, htokens, hword, ↓reduceIte, readName_str hname _ _ hend, readAlias, hnot,
        Bool.false_eq_true, hfound]

theorem enumHeader?_line (name : Text) :
    ∃ n, enumHeader? (line (headline "Enum" name)) = some n ∧ n.value = name := by
  have hword : Lexeme.isWord ⟨.word "Enum".toList, 0, Text.bytes (word "Enum".toList).text⟩ "enum" = true := by decide
  rw [enumHeader?, tokens_line (readable_headline (by decide) name)]
  simp only [headline, lexemes, token?, Nat.zero_add, hword, ↓reduceIte]
  exact ⟨_, rfl, rfl⟩

theorem enumValue?_line (value : Text) : enumValue? (line [str value]) = some value := by
  rw [enumValue?, firstToken?, tokens_line (readable_singleton (p := str value) trivial)]
  rfl

/-! ## References -/

def Segment.refBody (source : Endpoint) (kind : RelationKind) (target : Endpoint) : List Segment :=
  fieldName source.table source.field ++ [space, op kind, space] ++ fieldName target.table target.field

/-- The word at the start of a reference, with its name if it has one. -/
def Segment.refStart : Option Text → List Segment
  | none => [word "Ref".toList, colon, space]
  | some name => [word "Ref".toList, space, str name, colon, space]

theorem readable_fieldName (table field : Text) : Readable (fieldName table field) :=
  ((readable_singleton (p := str field) trivial).cons (p := dot) trivial).cons (p := str table) trivial

theorem readable_opTarget (kind : RelationKind) (table field : Text) :
    Readable (op kind :: space :: fieldName table field) :=
  (readable_singleton (p := op kind) trivial).append ((readable_fieldName table field).cons (p := space) trivial)
    (by simp [IsBreak])

theorem readable_refBody (source : Endpoint) (kind : RelationKind) (target : Endpoint) :
    Readable (refBody source kind target) := by
  have htarget := (readable_opTarget kind target.table target.field).cons (p := space) trivial
  have h := (readable_fieldName source.table source.field).append htarget (by simp [IsBreak])
  simpa [refBody] using h

theorem inlineRef?_line (kind : RelationKind) (table field : Text) :
    ∃ n, inlineRef? (line (keyed "ref" (op kind :: space :: fieldName table field))) = some (kind, n) ∧
      n.table = table ∧ n.field = field := by
  have hkey : IsKey "ref" := by decide
  have htokens := tokens_line (readable_keyed hkey (readable_opTarget kind table field))
  obtain ⟨n, hn, htable, hfield⟩ := FieldName.read?_lexemes table field
    (0 + Text.bytes "ref".toList + Text.bytes [':'] + Text.bytes [' '] + kind.symbol.bytes + Text.bytes [' '])
    [] (by simp)
  refine ⟨n, ?_, htable, hfield⟩
  have hword : ∀ stop, Lexeme.isWord ⟨.word "ref".toList, 0, stop⟩ "ref" = true := fun stop => by
    exact (by decide : Lexeme.isWord ⟨.word "ref".toList, 0, 0⟩ "ref" = true)
  rw [List.append_nil] at hn
  rw [inlineRef?, htokens]
  simp only [keyed, lexemes, token?, hword, ↓reduceIte, text, hn]

theorem RefBody.ofTokens?_line (source : Endpoint) (kind : RelationKind) (target : Endpoint)
    {list : List (List Segment)} (hlist : ∀ item ∈ list, IsItem item) (before : Text) :
    ∃ body, RefBody.ofTokens? (before ++ line (refBody source kind target ++ bracketed list))
        (lexemes before.bytes (refBody source kind target ++ bracketed list)) = some body ∧
      Endpoint.ofName body.source = source ∧ body.kind = kind ∧ Endpoint.ofName body.target = target ∧
      body.settings.map Setting.text = list.map line := by
  obtain ⟨front, hfront⟩ : ∃ front, front = before ++ line (refBody source kind target) := ⟨_, rfl⟩
  obtain ⟨start, stop, last, hlexemes⟩ : ∃ start stop last,
      lexemes before.bytes (refBody source kind target ++ bracketed list) =
        lexemes before.bytes (fieldName source.table source.field) ++ ⟨.op kind, start, stop⟩ ::
          (lexemes last (fieldName target.table target.field) ++ lexemes front.bytes (bracketed list)) := by
    rw [lexemes_append, ← Text.bytes_append, ← hfront]
    simp only [refBody, lexemes_append, List.append_assoc]
    exact ⟨_, _, _, rfl⟩
  rw [hlexemes, line_append, ← List.append_assoc, ← hfront]
  obtain ⟨n, hn, hntable, hnfield⟩ := FieldName.read?_lexemes source.table source.field before.bytes
    (⟨.op kind, start, stop⟩ ::
      (lexemes last (fieldName target.table target.field) ++ lexemes front.bytes (bracketed list))) (by simp)
  have hsource : Endpoint.ofName n = source := by simp [Endpoint.ofName, hntable, hnfield]
  cases list with
  | nil =>
      obtain ⟨m, hm, hmtable, hmfield⟩ := FieldName.read?_lexemes target.table target.field last
        (lexemes front.bytes (bracketed [])) (by simp [bracketed, lexemes])
      refine ⟨⟨n, kind, m, []⟩, ?_, hsource, rfl, by simp [Endpoint.ofName, hmtable, hmfield], rfl⟩
      simp only [RefBody.ofTokens?, hn, hm]
      rfl
  | cons item more =>
      obtain ⟨found, htexts, hfound⟩ := read_bracketed hlist front
      obtain ⟨m, hm, hmtable, hmfield⟩ := FieldName.read?_lexemes target.table target.field last
        (lexemes front.bytes (bracketed (item :: more))) (by simp [lexemes_bracketed])
      refine ⟨⟨n, kind, m, found⟩, ?_, hsource, rfl, by simp [Endpoint.ofName, hmtable, hmfield], htexts⟩
      simp only [RefBody.ofTokens?, hn, hm]
      simp [lexemes_bracketed, hfound]

theorem readable_refStart (name : Option Text) : Readable (refStart name) := by
  have hword : Readable [word "Ref".toList] := readable_singleton (show Text.IsWord "Ref".toList by decide)
  have hcolon := (readable_singleton (p := space) trivial).cons (p := colon) trivial
  cases name with
  | none => exact hword.append hcolon (by simp [IsBreak])
  | some name =>
      have hname := (hcolon.cons (p := str name) trivial).cons (p := space) trivial
      exact hword.append hname (by simp [IsBreak])

theorem readable_refLine (name : Option Text) (source : Endpoint) (kind : RelationKind) (target : Endpoint)
    {list : List (List Segment)} (hlist : ∀ item ∈ list, Readable item) :
    Readable (refStart name ++ (refBody source kind target ++ bracketed list)) := by
  refine (readable_refStart name).append ?_ (by simp [refBody, fieldName, IsBreak])
  exact (readable_refBody source kind target).append (readable_bracketed hlist) (isBreak_head?_bracketed list)

theorem RefStatement.read?_line {name : Option Text} {source target : Endpoint} {kind : RelationKind}
    {list : List (List Segment)} (hname : name ≠ some []) (hlist : ∀ item ∈ list, IsItem item ∧ Readable item) :
    ∃ r, RefStatement.read? (line (refStart name ++ (refBody source kind target ++ bracketed list))) = some r ∧
      r.name = name ∧ Endpoint.ofName r.body.source = source ∧ r.body.kind = kind ∧
      Endpoint.ofName r.body.target = target ∧ r.body.settings.map Setting.text = list.map line := by
  have hread := readable_refLine name source kind target fun item hi => (hlist item hi).2
  obtain ⟨body, hbody, hsource, hkind, htarget, htexts⟩ := RefBody.ofTokens?_line source kind target
    (fun item hi => (hlist item hi).1) (line (refStart name))
  refine ⟨⟨name, body⟩, ?_, rfl, hsource, hkind, htarget, htexts⟩
  have htokens := tokens_line hread
  rw [lexemes_append, Nat.zero_add] at htokens
  rw [← line_append] at hbody
  generalize line (refStart name ++ (refBody source kind target ++ bracketed list)) = whole at *
  generalize lexemes (line (refStart name)).bytes (refBody source kind target ++ bracketed list) = rest at *
  have hword : Lexeme.isWord ⟨.word "Ref".toList, 0, 0 + (word "Ref".toList).text.bytes⟩ "ref" = true := by decide
  cases name with
  | none =>
      simp only [refStart, lexemes, token?, List.cons_append, List.nil_append] at htokens
      simp only [RefStatement.read?, htokens, hword, ↓reduceIte, hbody, Option.map_some]
  | some name =>
      have hne : name ≠ [] := fun h => hname (by rw [h])
      simp only [refStart, lexemes, token?, List.cons_append, List.nil_append] at htokens
      simp only [RefStatement.read?, htokens, hword, ↓reduceIte, hbody, Option.map_some, Lexeme.isIdentifier_str hne]
      rfl

end SchemaDiagram
