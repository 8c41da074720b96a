import SchemaDiagram.Proofs.Schema.Lossless
import SchemaDiagram.Proofs.Source.Span
import SchemaDiagram.Proofs.Writing.Setting

/-! # Where relationships come from

Fields declare relationships in their settings, statements declare them in blocks of references and outside of
them. Every one of these that is read gives one relationship, and a statement that has to be a reference and is
not read as one gives a warning.
-/
namespace SchemaDiagram

open Text (IsBlanks)

/-! ## The key of a reference -/

theorem Token.eq_of_read_eq_colon {c : Char} {rest : Text} (h : (Token.read c rest).1 = .colon) : c = ':' := by
  unfold Token.read at h
  split at h <;> try cases h
  · rfl
  · split at h <;> cases h

theorem Text.toNat_lt_of_toLower {c : Char} (h : c.toLower.toNat < 128) : c.toNat < 128 := by
  by_cases hupper : c.val ≥ 'A'.val ∧ c.val ≤ 'Z'.val
  · exact Nat.lt_of_le_of_lt (UInt32.le_iff_toNat_le.mp hupper.2) (by decide)
  · have hsame : c.toLower = c := dif_neg hupper
    rwa [hsame] at h

/-- The letters from A to Z have the same small letters, whatever stands around them. -/
theorem Text.lowerFrom_eq_map {t : Text} (h : ∀ c ∈ t, c.toLower.toNat < 128) (before : Text) :
    lowerFrom before t = t.map Char.toLower := by
  induction t generalizing before with
  | nil => rfl
  | cons c rest ih =>
      rw [List.forall_mem_cons] at h
      have hc := toNat_lt_of_toLower h.1
      rw [lowerFrom, if_neg (by omega), lowerChar, if_pos hc, ih h.2]
      rfl

theorem Text.lower_of_equalIgnoringCase {t : Text} {key : String} (hkey : key.toList.map Char.toLower = key.toList)
    (hall : key.toList.all (·.toNat < 128) = true) (h : equalIgnoringCase t key.toList = true) :
    lower t = key.toList := by
  have hmap : t.map Char.toLower = key.toList := (eq_of_beq h).trans hkey
  rw [lower, lowerFrom_eq_map, hmap]
  intro c hc
  have hmem : c.toLower ∈ key.toList := hmap ▸ List.mem_map_of_mem hc
  exact of_decide_eq_true (List.all_eq_true.mp hall _ hmem)

/-- A text whose first tokens are a word and a colon has the word in front of its first colon, among blanks. -/
theorem exists_of_word_colon {t w : Text} {x : Lexeme} {start stop : Nat} {xs : List Lexeme} (hw : x.token = .word w)
    (h : tokens t = x :: ⟨.colon, start, stop⟩ :: xs) :
    ∃ front back rest, IsBlanks front ∧ IsBlanks back ∧ (∀ c ∈ w, isWordChar c = true) ∧
      t = front ++ (w ++ back) ++ ':' :: rest := by
  have hspans := h ▸ spans_tokens t
  cases hspans with
  | @token _ front c body _ token _ hfront _ hread hspans =>
      obtain ⟨rfl, hword⟩ := Token.eq_of_read_eq_word (hread.trans (congrArg (·, _) hw))
      cases hspans with
      | @token _ back d more rest _ _ hback _ hread =>
          obtain rfl := Token.eq_of_read_eq_colon (congrArg Prod.fst hread)
          exact ⟨front, back, more ++ rest, hfront, hback, hword, by simp⟩

theorem Setting.hasKey_ref {s : Setting} {reference : RelationKind × FieldName}
    (h : inlineRef? s.text = some reference) : s.hasKey "ref" = true := by
  simp only [inlineRef?] at h
  split at h
  · next x _ _ kind _ _ rest htokens =>
      obtain ⟨hkeyword, -⟩ := Option.ite_none_right_eq_some.mp h
      obtain ⟨w, hw⟩ := Lexeme.token_of_isWord hkeyword
      obtain ⟨front, back, rest, hfront, hback, hword, htext⟩ := exists_of_word_colon hw htokens
      have hblank : Text.isBlank ':' = false := by decide
      have hplain : ':' ∉ front ++ (w ++ back) := by
        intro hc
        rcases List.mem_append.mp hc with hc | hc
        · exact absurd (hfront _ hc) (by simp [hblank])
        · rcases List.mem_append.mp hc with hc | hc
          · exact not_mem_markChars_of_isWordChar (hword _ hc) (by decide)
          · exact absurd (hback _ hc) (by simp [hblank])
      have hkey : Text.lower (Text.trim (front ++ (w ++ back))) = "ref".toList := by
        rw [Text.trim_blanks_append hfront, Text.trim_append_blanks w hback,
          Text.trim_of_forall fun c hc => isBlank_of_isWordChar (hword c hc)]
        rw [Lexeme.isWord, hw] at hkeyword
        exact Text.lower_of_equalIgnoringCase rfl rfl hkeyword
      have hsome : s.key? = some "ref".toList := by
        rw [key?, htext, Segment.splitAtFirst_append hplain]
        exact congrArg some hkey
      rw [hasKey, hsome]
      rfl
  · cases h

/-! ## References in settings -/

/-- A setting of a field of a table. -/
structure FieldSetting where
  table : Text
  field : Text
  setting : Setting

namespace FieldSetting

def isReference (f : FieldSetting) : Bool := (inlineRef? f.setting.text).isSome

def relationship? (f : FieldSetting) : Option Relationship :=
  (inlineRef? f.setting.text).map fun (kind, target) =>
    { source := ⟨f.table, f.field⟩, kind, target := Endpoint.ofName target, origin := .inline }

/-- The relationship is the one that the setting declares. -/
inductive ReadsAs (f : FieldSetting) : Relationship → Prop
  | setting {kind target} (hread : inlineRef? f.setting.text = some (kind, target)) :
      ReadsAs f { source := ⟨f.table, f.field⟩, kind, target := Endpoint.ofName target, origin := .inline }

theorem readsAs_of_relationship? {f : FieldSetting} {r : Relationship} (h : f.relationship? = some r) :
    f.ReadsAs r := by
  obtain ⟨⟨kind, target⟩, hread, rfl⟩ := Option.map_eq_some_iff.mp h
  exact .setting hread

end FieldSetting

namespace Outline

/-- The name that the header of a block gives to its table. -/
def tableName? (o : Outline) (b : Block) : Option Text := do
  let statement ← o.header? b
  let header ← TableHeader.read? statement.text
  let name ← header.name
  return name.value

/-- The fields that stand directly inside a table, in order. -/
def fieldsIn (o : Outline) (block : Nat) : List FieldHead :=
  (o.statements.filter fun s => s.context = .table block ∧ s.opens = none).filterMap fun s =>
    (TableLine.read s.text).head?

/-- The settings of all fields of tables with a name: table by table, field by field, as they are written. -/
def fieldSettings (o : Outline) : List FieldSetting :=
  (o.blocks.zipIdx.filter (·.1.kind = .table)).flatMap fun (b, i) =>
    (o.tableName? b).toList.flatMap fun table =>
      (o.fieldsIn i).flatMap fun head => head.settings.map fun setting => ⟨table, head.name, setting⟩

theorem flatMap_relationships (table : Text) (lines : List TableLine) :
    lines.flatMap (TableLine.relationships table) =
      (lines.filterMap TableLine.head?).flatMap (inlineRelationships table) := by
  rw [List.filterMap_eq_flatMap_toList, List.flatMap_assoc]
  refine List.flatMap_congr fun line _ => ?_
  cases line <;> simp [TableLine.relationships, TableLine.head?]

variable {o : Outline}

theorem filterMap_head?_tableLines (h : o.Consistent) {i : Nat} {b : Block} (hb : o.blocks[i]? = some b)
    (hk : b.kind = .table) : (o.tableLines b).filterMap TableLine.head? = o.fieldsIn i := by
  have hcontext : ∀ s ∈ o.statements, s.context.body? = some i ↔ s.context = .table i := by
    intro s hs
    refine ⟨fun hi => ?_, fun hi => by rw [hi]; rfl⟩
    have hmem : s ∈ o.body b := by
      rw [h.body_eq_filter hb]
      exact List.mem_filter.mpr ⟨hs, decide_eq_true hi⟩
    rw [h.context_of_mem_body hb hmem, hk]
    rfl
  rw [tableLines, h.body_eq_filter hb, fieldsIn, List.filterMap_map, List.filter_filter]
  refine congrArg (List.filterMap _) (List.filter_congr fun s hs => ?_)
  simp [hcontext s hs, and_comm]

theorem inlineRelationships_eq (table : Text) (head : FieldHead) :
    inlineRelationships table head =
      (head.settings.map fun setting => ⟨table, head.name, setting⟩).filterMap FieldSetting.relationship? := by
  rw [inlineRelationships, List.filterMap_map]
  refine List.filterMap_congr fun s _ => ?_
  rw [Function.comp_apply, FieldSetting.relationship?]
  cases hread : inlineRef? s.text with
  | none => simp
  | some reference => simp [Setting.hasKey_ref hread]

/-- The relationships of the fields of a block are those of the settings in it. -/
theorem relationships_table? (h : o.Consistent) {i : Nat} {b : Block} (hb : o.blocks[i]? = some b)
    (hk : b.kind = .table) :
    (o.table? b).toList.flatMap Prod.snd = ((o.tableName? b).toList.flatMap fun table =>
      (o.fieldsIn i).flatMap fun head => head.settings.map fun setting => ⟨table, head.name, setting⟩).filterMap
        FieldSetting.relationship? := by
  cases hs : o.header? b with
  | none => simp [table?, tableName?, hs]
  | some s =>
      cases hheader : TableHeader.read? s.text with
      | none => simp [table?, tableName?, hs, hheader]
      | some header =>
          cases hname : header.name with
          | none => simp [table?, tableName?, hs, hheader, hname]
          | some name =>
              rw [table?_of_header hs hheader hname rfl, (Table.foldl_withSetting _ _).1,
                flatMap_relationships, filterMap_head?_tableLines h hb hk, Option.toList_some, List.flatMap_singleton]
              simp only [tableName?, hs, hheader, hname, Option.bind_eq_bind, Option.bind_some, Option.pure_def,
                Option.toList_some, List.flatMap_singleton, List.filterMap_flatMap, ← inlineRelationships_eq]

theorem inline_eq (h : o.Consistent) :
    o.tables.flatMap Prod.snd = o.fieldSettings.filterMap FieldSetting.relationship? := by
  have hblocks : o.blocks = o.blocks.zipIdx.map Prod.fst := (List.zipIdx_map_fst 0 o.blocks).symm
  rw [tables, List.filterMap_eq_flatMap_toList, List.flatMap_assoc, fieldSettings, List.filterMap_flatMap]
  conv_lhs => rw [hblocks, List.filter_map, List.flatMap_map]
  refine List.flatMap_congr fun entry hentry => ?_
  obtain ⟨b, i⟩ := entry
  obtain ⟨hmem, hk⟩ := List.mem_filter.mp hentry
  exact relationships_table? h (List.mem_zipIdx_iff_getElem?.mp hmem) (of_decide_eq_true hk)

end Outline

/-! ## References in statements -/

namespace Statement

/-- The statement opens no block and is read as a reference: as a line of a block of references when it stands
directly inside of one, and else as a reference of its own. -/
def isReference (s : Statement) : Bool :=
  s.opens.isNone && match s.context with
    | .ref _ => (RefBody.read? s.text).isSome
    | _ => (RefStatement.read? s.text).isSome

/-- The statement has to be a reference: it stands directly inside a block of references, or outside all blocks
with the word `Ref` in front. -/
inductive MustBeReference (s : Statement) : Prop
  | line {block} (hcontext : s.context = .ref block)
  | statement (hcontext : s.context = .topLevel) (hword : isRefStatement s.text = true)

/-- What the check of references reports of the statement. -/
def referenceWarnings (s : Statement) : List Diagnostic := ((referenceProblem? s).map (·.markAll s)).toList

end Statement

namespace Outline

variable {o : Outline} {s : Statement}

/-- The relationship is the one that the statement declares. -/
inductive ReadsAs (o : Outline) (s : Statement) : Relationship → Prop
  | line {block body} (hcontext : s.context = .ref block) (hread : RefBody.read? s.text = some body) :
      ReadsAs o s (Relationship.ofBody body (o.refBlockName block))
  | statement {r} (hcontext : ∀ block, s.context ≠ .ref block) (hread : RefStatement.read? s.text = some r) :
      ReadsAs o s (Relationship.ofBody r.body r.name)

/-- What a statement adds to the relationships. -/
def declaredBy (o : Outline) (s : Statement) : List Relationship := (o.relationship? s).toList

theorem isSome_relationship? (o : Outline) (s : Statement) : (o.relationship? s).isSome = s.isReference := by
  rw [relationship?, Statement.isReference]
  split
  · next hopens =>
      rw [hopens]
      cases s.context <;> simp
  · next hopens => simp [Option.isNone_eq_false_iff.mpr (Option.ne_none_iff_isSome.mp hopens)]

theorem readsAs_of_relationship? {r : Relationship} (h : o.relationship? s = some r) : o.ReadsAs s r := by
  rw [relationship?] at h
  split at h
  · split at h
    · next block hcontext =>
        obtain ⟨body, hread, rfl⟩ := Option.map_eq_some_iff.mp h
        exact .line hcontext hread
    · next hcontext =>
        obtain ⟨r, hread, rfl⟩ := Option.map_eq_some_iff.mp h
        exact .statement hcontext hread
  · cases h

/-- A statement that has to be a reference gives one relationship or one warning, and never both. -/
theorem declares_or_warns (o : Outline) (hopens : s.opens = none) (hmust : s.MustBeReference) :
    (∃ r, o.declaredBy s = [r]) ∧ s.referenceWarnings = [] ∨
      o.declaredBy s = [] ∧ ∃ p : Problem, s.referenceWarnings = [p.markAll s] ∧ p.severity = .warning := by
  cases hmust with
  | @line block hcontext =>
      cases hread : RefBody.read? s.text with
      | some body =>
          refine .inl ⟨⟨Relationship.ofBody body (o.refBlockName block), ?_⟩, ?_⟩
          · simp [declaredBy, relationship?, hopens, hcontext, hread]
          · simp [Statement.referenceWarnings, referenceProblem?, hcontext, hread]
      | none =>
          refine .inr ⟨?_, .referenceLine, ?_, rfl⟩
          · simp [declaredBy, relationship?, hopens, hcontext, hread]
          · simp [Statement.referenceWarnings, referenceProblem?, hcontext, hread]
  | statement hcontext hword =>
      cases hread : RefStatement.read? s.text with
      | some r =>
          refine .inl ⟨⟨Relationship.ofBody r.body r.name, ?_⟩, ?_⟩
          · simp [declaredBy, relationship?, hopens, hcontext, hread]
          · simp [Statement.referenceWarnings, referenceProblem?, hcontext, hread]
      | none =>
          refine .inr ⟨?_, .referenceStatement, ?_, rfl⟩
          · simp [declaredBy, relationship?, hopens, hcontext, hread]
          · simp [Statement.referenceWarnings, referenceProblem?, hcontext, hopens, hword, hread]

theorem standaloneRelationships_eq_flatMap (o : Outline) :
    o.standaloneRelationships = o.statements.flatMap o.declaredBy := List.filterMap_eq_flatMap_toList ..

end Outline

theorem checkReferences_eq_flatMap (source : Source) :
    checkReferences source = source.outline.statements.flatMap Statement.referenceWarnings :=
  List.filterMap_eq_flatMap_toList ..

/-! ## All relationships -/

/-- What is read from a list corresponds to the members that can be read. -/
theorem forall₂_filter_filterMap {α β : Type} {R : α → β → Prop} {f : α → Option β} {p : α → Bool} {l : List α}
    (hp : ∀ a ∈ l, (f a).isSome = p a) (hR : ∀ a b, f a = some b → R a b) :
    List.Forall₂ R (l.filter p) (l.filterMap f) := by
  have hfilter : l.filterMap f = (l.filter p).filterMap f := by
    rw [List.filterMap_filter]
    refine List.filterMap_congr fun a ha => ?_
    rw [← hp a ha]
    cases f a <;> rfl
  rw [hfilter]
  refine forall₂_filterMap fun a ha => ?_
  obtain ⟨hmem, hpa⟩ := List.mem_filter.mp ha
  obtain ⟨b, hb⟩ := Option.isSome_iff_exists.mp ((hp a hmem).trans hpa)
  exact ⟨b, hb, hR a b hb⟩

/-- The relationships of a schema are those of the settings of fields and behind them those of statements, one for
each that is read and in the order of the text. Of a statement that has to be a reference there is a relationship or
a warning, and never both. -/
theorem Schema.relationships_ofText (text : Text) :
    let o := (Source.ofText text).outline
    let schema := Schema.ofText text
    ∃ inline standalone : List Relationship,
      schema.relationships = (inline ++ standalone).map (·.resolve schema.tables) ∧
      schema.relationships.filter (·.origin = .inline) = inline.map (·.resolve schema.tables) ∧
      schema.relationships.filter (·.origin = .standalone) = standalone.map (·.resolve schema.tables) ∧
      List.Forall₂ FieldSetting.ReadsAs (o.fieldSettings.filter (·.isReference)) inline ∧
      List.Forall₂ o.ReadsAs (o.statements.filter (·.isReference)) standalone ∧
      standalone = o.statements.flatMap o.declaredBy ∧
      checkReferences (Source.ofText text) = o.statements.flatMap Statement.referenceWarnings ∧
      ∀ s ∈ o.statements, s.opens = none → s.MustBeReference →
        (∃ r, o.declaredBy s = [r]) ∧ s.referenceWarnings = [] ∨
          o.declaredBy s = [] ∧ ∃ p : Problem, s.referenceWarnings = [p.markAll s] ∧ p.severity = .warning := by
  intro o schema
  refine ⟨o.tables.flatMap Prod.snd, o.standaloneRelationships, rfl, inline_ofText text, standalone_ofText text,
    ?_, ?_, o.standaloneRelationships_eq_flatMap, checkReferences_eq_flatMap _, fun s _ => o.declares_or_warns⟩
  · rw [Outline.inline_eq (Outline.consistent_ofText text)]
    exact forall₂_filter_filterMap (fun f _ => Option.isSome_map ..) fun f r => FieldSetting.readsAs_of_relationship?
  · exact forall₂_filter_filterMap (fun s _ => o.isSome_relationship? s) fun s r => Outline.readsAs_of_relationship?

/-- A setting that declares a relationship, a block that cuts a table short, and references that are read and not. -/
def mixedReferences : Text :=
  "Table a \x7b\n  x int [ref: > b.y]\nTable b \x7b\n  y int\n\x7d\n\x7d\n".toList ++
  "Ref r \x7b\n  a.x - b.y\n  a.x b.y\n\x7d\nRef: a.x < b.y\nRef a.x < b.y\n".toList

def unreadReference : Statement := ⟨12, "Ref a.x < b.y".toList, 1, 14, .topLevel, none⟩

theorem Schema.relationships_ofText_mixedReferences :
    unreadReference ∈ (Source.ofText mixedReferences).outline.statements ∧ unreadReference.MustBeReference ∧
      (Schema.ofText mixedReferences).relationships.map (·.origin) = [.inline, .standalone, .standalone] ∧
      ((∃ r, (Source.ofText mixedReferences).outline.declaredBy unreadReference = [r]) ∧
          unreadReference.referenceWarnings = [] ∨
        (Source.ofText mixedReferences).outline.declaredBy unreadReference = [] ∧
          ∃ p : Problem, unreadReference.referenceWarnings = [p.markAll unreadReference] ∧ p.severity = .warning) := by
  have hmem : unreadReference ∈ (Source.ofText mixedReferences).outline.statements := by decide +kernel
  have hmust : unreadReference.MustBeReference := .statement rfl (by decide +kernel)
  obtain ⟨inline, standalone, -, -, -, -, -, -, -, hone⟩ := Schema.relationships_ofText mixedReferences
  exact ⟨hmem, hmust, by decide +kernel, hone unreadReference hmem rfl hmust⟩

end SchemaDiagram
