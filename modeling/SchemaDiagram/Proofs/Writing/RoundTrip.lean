import SchemaDiagram.Proofs.Writing.Block

/-! # Written schemas are read back

The lines of each declaration add that declaration to the outline, whatever stands in front of them.
Line by line this builds up the schema that was written.
-/
namespace SchemaDiagram

open Segment

/-! ## Lines that declare something -/

/-- The lines add these declarations to whatever stands in front of them. -/
structure Adds (ls : List Text) (tables : List (Table × List Relationship)) (enums : List Enum)
    (relationships : List Relationship) : Prop where
  oneLine : ∀ l ∈ ls, l.OneLine
  reads (o : Outline) (number : Nat) (rest : List Text) : o.Consistent → o.stack = [] →
    ∃ o' : Outline, o.read number (ls ++ rest) = o'.read (number + ls.length) rest ∧ o'.Consistent ∧ o'.stack = [] ∧
      o'.tables = o.tables ++ tables ∧ o'.enums = o.enums ++ enums ∧
      o'.standaloneRelationships = o.standaloneRelationships ++ relationships

namespace Adds

theorem nil : Adds [] [] [] [] where
  oneLine := by simp
  reads o _ _ hc hs := ⟨o, rfl, hc, hs, by simp, by simp, by simp⟩

theorem append {ls₁ ls₂ : List Text} {ts₁ ts₂ : List (Table × List Relationship)} {es₁ es₂ : List Enum}
    {rs₁ rs₂ : List Relationship} (h₁ : Adds ls₁ ts₁ es₁ rs₁) (h₂ : Adds ls₂ ts₂ es₂ rs₂) :
    Adds (ls₁ ++ ls₂) (ts₁ ++ ts₂) (es₁ ++ es₂) (rs₁ ++ rs₂) where
  oneLine l hl := (List.mem_append.mp hl).elim (h₁.oneLine l) (h₂.oneLine l)
  reads := by
    intro o number rest hc hs
    obtain ⟨o₁, hread₁, hc₁, hs₁, ht₁, he₁, hr₁⟩ := h₁.reads o number (ls₂ ++ rest) hc hs
    obtain ⟨o₂, hread₂, hc₂, hs₂, ht₂, he₂, hr₂⟩ := h₂.reads o₁ (number + ls₁.length) rest hc₁ hs₁
    refine ⟨o₂, ?_, hc₂, hs₂, ?_, ?_, ?_⟩
    · rw [List.append_assoc, hread₁, hread₂, List.length_append, Nat.add_assoc]
    · rw [ht₂, ht₁, List.append_assoc]
    · rw [he₂, he₁, List.append_assoc]
    · rw [hr₂, hr₁, List.append_assoc]

theorem flatMap {α : Type} {l : List α} {ls : α → List Text} {ts : α → List (Table × List Relationship)}
    {es : α → List Enum} {rs : α → List Relationship} (h : ∀ a ∈ l, Adds (ls a) (ts a) (es a) (rs a)) :
    Adds (l.flatMap ls) (l.flatMap ts) (l.flatMap es) (l.flatMap rs) := by
  induction l with
  | nil => exact nil
  | cons a l ih => exact (h a List.mem_cons_self).append (ih fun b hb => h b (List.mem_cons_of_mem a hb))

end Adds

/-! ## Tables -/

theorem read_fields {name : Text} {fields : List TableField} {refs : TableField → List Relationship}
    (hf : ∀ f ∈ fields, f.Writable)
    (hrefs : ∀ f ∈ fields, ∀ r ∈ refs f, r.Writable ∧ r.origin = .inline ∧ r.source = ⟨name, f.name⟩) (t : Table) :
    (fields.map fun f => TableLine.read (line (f.segments (refs f)))).foldl Table.withLine t =
        { t with fields := t.fields ++ fields } ∧
      (fields.map fun f => TableLine.read (line (f.segments (refs f)))).flatMap (TableLine.relationships name) =
        fields.flatMap refs := by
  induction fields generalizing t with
  | nil => simp
  | cons f fields ih =>
      obtain ⟨head, hline, hfield, hinline⟩ :=
        TableField.read_line (hf f List.mem_cons_self) (hrefs f List.mem_cons_self)
      obtain ⟨ht, hr⟩ := ih (fun g hg => hf g (List.mem_cons_of_mem f hg))
        (fun g hg => hrefs g (List.mem_cons_of_mem f hg)) (t.withLine (.field head))
      constructor
      · rw [List.map_cons, List.foldl_cons, hline, ht]
        simp [Table.withLine, hfield]
      · rw [List.map_cons, List.flatMap_cons, hline, hr, List.flatMap_cons]
        exact congrArg (· ++ fields.flatMap refs) hinline

theorem adds_table {t : Table} (h : t.Writable) {refs : TableField → List Relationship}
    (hrefs : ∀ f ∈ t.fields, ∀ r ∈ refs f, r.Writable ∧ r.origin = .inline ∧ r.source = ⟨t.name, f.name⟩) :
    Adds (t.lines refs) [(t, t.fields.flatMap refs)] [] [] := by
  have hlines : ∀ ps ∈ t.fields.map fun f => f.segments (refs f), IsStatement ps := by
    intro ps hps
    obtain ⟨f, hf, rfl⟩ := List.mem_map.mp hps
    exact TableField.isStatement_segments (h.fields f hf) fun r hr => (hrefs f hf r hr).1
  refine ⟨oneLine_blockLines (Table.isStatement_header h) hlines, fun o number rest hc hs => ?_⟩
  obtain ⟨o', s, body, b, hread, hadds, htext, hkind, htexts⟩ :=
    Outline.read_block hc hs (Table.isStatement_header h) hlines number rest
  obtain ⟨header, name, hheader, hname, hvalue, hsettings⟩ := Table.header_line h
  rw [BlockKind.ofHeader_eq_table_iff_header.mpr ⟨header, hheader⟩] at hkind
  rw [← htext] at hheader
  have hbody := hadds.body_eq hc (by rw [hkind]; rfl)
  have htableLines : o'.tableLines b = t.fields.map fun f => TableLine.read (line (f.segments (refs f))) := by
    have hopens : body.filter (·.opens = none) = body := by
      rw [List.filter_eq_self]
      exact fun s hs => by simp [hadds.opens_body s hs]
    have hmap := congrArg (List.map TableLine.read) htexts
    simpa [Outline.tableLines, hbody, hopens, Function.comp_def] using hmap
  obtain ⟨hfields, hinline⟩ := read_fields h.fields hrefs { t with fields := [] }
  have htable : o'.table? b = some (t, t.fields.flatMap refs) := by
    rw [Outline.table?_of_header hadds.header?_eq hheader hname hsettings, htableLines, hfields]
    exact congrArg (fun rs => some (t, rs)) hinline
  refine ⟨o', hread, hadds.consistent, hadds.stack_eq, ?_, ?_, ?_⟩
  · rw [hadds.toExtends.tables_eq hc hadds.consistent]
    simp [hkind, htable]
  · rw [hadds.toExtends.enums_eq hc hadds.consistent]
    simp [hkind]
  · rw [hadds.standaloneRelationships_eq hc (by simp [hkind]), List.append_nil]
    intro s hs
    have hmem : s.text ∈ body.map Statement.text := List.mem_map_of_mem hs
    rw [htexts, List.map_map] at hmem
    obtain ⟨f, hf, hftext⟩ := List.mem_map.mp hmem
    rw [← hftext]
    exact TableField.refStatement_line (h.fields f hf) fun r hr => (hrefs f hf r hr).1

/-! ## Enums -/

theorem Enum.isStatement_header {e : Enum} (h : e.Writable) : IsStatement (headline "Enum" e.name) := by
  refine ⟨⟨⟨_, _, rfl, nofun⟩, ⟨[_, _], _, rfl, nofun⟩⟩, readable_headline (by decide) _, ?_⟩
  simpa [headline] using h.name

theorem isStatement_str {content : Text} (h : content.OneLine) : IsStatement [str content] :=
  ⟨hasEnds_singleton nofun, (isSetting_str h).readable, (isSetting_str h).oneLine⟩

theorem BlockKind.ofHeader_enumLine (name : Text) : ofHeader (line (headline "Enum" name)) = .enum := by
  have htable : Lexeme.isWord ⟨.word "Enum".toList, 0, (word "Enum".toList).text.bytes⟩ "table" = false := by decide
  have henum : Lexeme.isWord ⟨.word "Enum".toList, 0, (word "Enum".toList).text.bytes⟩ "enum" = true := by decide
  rw [ofHeader, firstToken?, tokens_line (readable_headline (by decide) name)]
  simp only [headline, lexemes, token?, List.head?_cons, Nat.zero_add, htable, henum, Bool.false_eq_true, ↓reduceIte]

theorem adds_enum {e : Enum} (h : e.Writable) : Adds e.lines [] [e] [] := by
  have hlines : ∀ ps ∈ e.values.map fun v => [str v], IsStatement ps := by
    intro ps hps
    obtain ⟨v, hv, rfl⟩ := List.mem_map.mp hps
    exact isStatement_str (h.values v hv)
  refine ⟨oneLine_blockLines (Enum.isStatement_header h) hlines, fun o number rest hc hs => ?_⟩
  obtain ⟨o', s, body, b, hread, hadds, htext, hkind, htexts⟩ :=
    Outline.read_block hc hs (Enum.isStatement_header h) hlines number rest
  obtain ⟨name, hheader, hvalue⟩ := enumHeader?_line e.name
  rw [BlockKind.ofHeader_enumLine] at hkind
  have hvalues : (o'.body b).filterMap (fun s => enumValue? s.text) = e.values := by
    have hmap := congrArg (List.filterMap enumValue?) htexts
    simp only [List.filterMap_map, List.map_map, Function.comp_def, enumValue?_line, List.filterMap_some] at hmap
    rw [hadds.body_eq hc (by rw [hkind]; rfl)]
    exact hmap
  have henum : o'.enum? b = some e := by
    rw [Outline.enum?, hadds.header?_eq]
    simp [htext, hheader, hvalues, hvalue]
  refine ⟨o', hread, hadds.consistent, hadds.stack_eq, ?_, ?_, ?_⟩
  · rw [hadds.toExtends.tables_eq hc hadds.consistent]
    simp [hkind]
  · rw [hadds.toExtends.enums_eq hc hadds.consistent]
    simp [hkind, henum]
  · rw [hadds.standaloneRelationships_eq hc (by simp [hkind]), List.append_nil]
    intro s hs
    have hmem : s.text ∈ body.map Statement.text := List.mem_map_of_mem hs
    rw [htexts, List.map_map] at hmem
    obtain ⟨v, hv, hvtext⟩ := List.mem_map.mp hmem
    rw [← hvtext]
    exact refStatement_str (isStatement_str (h.values v hv)).readable

/-! ## References -/

theorem adds_reference {r : Relationship} (h : r.Writable) (ho : r.origin = .standalone) :
    Adds [line r.segments] [] [] [r] := by
  have hstatement := Relationship.isStatement_segments h
  refine ⟨by simpa using hstatement.oneLine_line, fun o number rest hc hs => ?_⟩
  obtain ⟨st, hread, hst⟩ := Relationship.read_line h ho
  obtain ⟨s, htext, hcontext, hopens, hadd⟩ := Outline.addLine_statement hstatement o number
  have htop := Outline.context_of_nil hs
  rw [htop] at hcontext
  have hextends : o.Extends (o.addLine ⟨number, false, (line r.segments).map .plain⟩) [s] [] := by
    refine ⟨by rw [hadd], by rw [hadd, htop]; simp [Context.body?], ?_⟩
    intro s' hs' i hi
    obtain rfl := List.mem_singleton.mp hs'
    rw [hcontext] at hi
    cases hi
  have hrelationship (o' : Outline) : o'.relationship? s = some r := by
    simp [Outline.relationship?, hopens, hcontext, htext, hread, hst]
  have hc' := hc.addLine ⟨number, false, (line r.segments).map .plain⟩
  refine ⟨_, Outline.read_statement hstatement o number rest, hc', by rw [hadd]; exact hs, ?_, ?_, ?_⟩
  · rw [hextends.tables_eq hc hc']
    rfl
  · rw [hextends.enums_eq hc hc']
    rfl
  · rw [hextends.standaloneRelationships_eq hc]
    simp [hrelationship]

/-! ## Whole schemas -/

theorem flatMap_filter_perm {α β : Type} [DecidableEq β] (key : α → β) {keys : List β} (hk : keys.Nodup) {l : List α}
    (hl : ∀ a ∈ l, key a ∈ keys) : (keys.flatMap fun k => l.filter (key · = k)).Perm l := by
  induction keys generalizing l with
  | nil =>
      obtain rfl := List.eq_nil_iff_forall_not_mem.mpr fun a ha => List.not_mem_nil (hl a ha)
      rfl
  | cons k keys ih =>
      obtain ⟨hnot, hk⟩ := List.nodup_cons.mp hk
      have hrest : (keys.flatMap fun k' => l.filter (key · = k')) =
          keys.flatMap fun k' => (l.filter fun a => !decide (key a = k)).filter (key · = k') := by
        refine List.flatMap_congr fun k' hk' => ?_
        rw [List.filter_filter]
        refine List.filter_congr fun a _ => ?_
        have hne : k' ≠ k := fun h => hnot (h ▸ hk')
        by_cases ha : key a = k' <;> simp [ha, hne]
      have hothers : (keys.flatMap fun k' => (l.filter fun a => !decide (key a = k)).filter (key · = k')).Perm
          (l.filter fun a => !decide (key a = k)) := by
        refine ih hk fun a ha => ?_
        obtain ⟨hmem, hne⟩ := List.mem_filter.mp ha
        exact (List.mem_cons.mp (hl a hmem)).resolve_left (by simpa using hne)
      rw [List.flatMap_cons, hrest]
      exact (hothers.append_left _).trans (List.filter_append_perm _ l)

namespace Schema

theorem resolveAliases_eq {s : Schema} (h : ∀ t ∈ s.tables, t.otherName = none) : s.resolveAliases = s := by
  have hname : ∀ name, resolveName s.tables name = name := by
    intro name
    have hnone : s.tables.find? (·.otherName = some name) = none := by
      rw [List.find?_eq_none]
      intro t ht
      simp [h t ht]
    rw [resolveName, hnone]
    exact ite_self name
  have hrelationship : ∀ r : Relationship, r.resolve s.tables = r := by
    intro r
    simp only [Relationship.resolve, Endpoint.resolve, hname]
  simp [resolveAliases, hrelationship]

theorem adds_lines {s : Schema} (h : s.Writable) :
    Adds s.lines (s.tables.map fun t => (t, t.fields.flatMap (s.inlineOf t))) s.enums s.standalone := by
  have htables : Adds (s.tables.flatMap fun t => t.lines (s.inlineOf t))
      (s.tables.flatMap fun t => [(t, t.fields.flatMap (s.inlineOf t))]) (s.tables.flatMap fun _ => [])
      (s.tables.flatMap fun _ => []) := by
    refine Adds.flatMap fun t ht => adds_table (h.tables t ht) fun f _ r hr => ?_
    obtain ⟨hmem, hinline⟩ := List.mem_filter.mp hr
    exact ⟨h.relationships r hmem, by simpa using hinline⟩
  have henums := Adds.flatMap fun e he => adds_enum (h.enums e he)
  have hreferences : Adds (s.standalone.flatMap fun r => [line r.segments]) (s.standalone.flatMap fun _ => [])
      (s.standalone.flatMap fun _ => []) (s.standalone.flatMap fun r => [r]) := by
    refine Adds.flatMap fun r hr => ?_
    obtain ⟨hmem, ho⟩ := List.mem_filter.mp hr
    exact adds_reference (h.relationships r hmem) (by simpa using ho)
  have hadds := (htables.append henums).append hreferences
  have hnil : ∀ {α β : Type} (l : List α), l.flatMap (fun _ => ([] : List β)) = [] :=
    fun l => List.flatMap_eq_nil_iff.mpr fun _ _ => rfl
  simpa only [lines, hnil, ← List.map_eq_flatMap, List.map_id', List.nil_append, List.append_nil] using hadds

theorem ofText_text_eq {s : Schema} (h : s.Writable) : ofText s.text = s.inReadingOrder := by
  have hadds := adds_lines h
  obtain ⟨o, hread, -, -, htables, henums, hstandalone⟩ :=
    hadds.reads Outline.empty 1 [[]] Outline.consistent_empty rfl
  have houtline : (Source.ofText s.text).outline = { o with continuing := false } := by
    have hscan : (Source.ofText s.text).outline = Outline.empty.read 1 (s.lines ++ [[]]) := by
      rw [← lines_flatMap hadds.oneLine]
      rfl
    -- What is left is the empty line behind the last line feed.
    rw [hscan, hread]
    rfl
  have hwritten : (Source.ofText s.text).outline.written = s.inReadingOrder := by
    rw [houtline]
    have ht : Outline.tables { o with continuing := false } = o.tables := rfl
    have he : Outline.enums { o with continuing := false } = o.enums := rfl
    have hr : Outline.standaloneRelationships { o with continuing := false } = o.standaloneRelationships := rfl
    rw [Outline.written, ht, he, hr, htables, henums, hstandalone]
    simp [inReadingOrder, Outline.empty, Outline.tables, Outline.enums, Outline.standaloneRelationships,
      Function.comp_def, List.flatMap_map]
  rw [ofText, hwritten]
  exact resolveAliases_eq fun t ht => (h.tables t ht).otherName

theorem inReadingOrder_perm {s : Schema} (h : s.InlinePlaced) :
    s.inReadingOrder.relationships.Perm s.relationships := by
  have hinline : (s.tables.flatMap fun t => t.fields.flatMap (s.inlineOf t)) =
      s.fieldEnds.flatMap fun e => (s.relationships.filter (·.origin = .inline)).filter (·.source = e) := by
    rw [fieldEnds, List.flatMap_assoc]
    refine List.flatMap_congr fun t _ => ?_
    rw [List.flatMap_map]
    refine List.flatMap_congr fun f _ => ?_
    rw [List.filter_filter]
    refine List.filter_congr fun r _ => ?_
    rw [Bool.and_comm, Bool.decide_and]
  have hstandalone : s.standalone = s.relationships.filter fun r => !decide (r.origin = .inline) := by
    refine List.filter_congr fun r _ => ?_
    cases r.origin <;> rfl
  have hperm := flatMap_filter_perm Relationship.source h.nodup
    (l := s.relationships.filter (·.origin = .inline)) fun r hr => by
      obtain ⟨hmem, ho⟩ := List.mem_filter.mp hr
      exact h.source_mem r hmem (by simpa using ho)
  rw [inReadingOrder, hinline, hstandalone]
  exact (hperm.append_right _).trans (List.filter_append_perm _ s.relationships)

/-- A schema that is written down is read back as it was, with its relationships in reading order. -/
theorem ofText_text {s : Schema} (h : s.Writable) :
    ofText s.text = s.inReadingOrder ∧ (s.InlinePlaced → (ofText s.text).relationships.Perm s.relationships) := by
  refine ⟨ofText_text_eq h, fun hp => ?_⟩
  rw [ofText_text_eq h]
  exact inReadingOrder_perm hp

/-- Names and notes with braces, quotation marks, marks of comments and keywords in them. -/
def unruly : Schema where
  tables := [
    ⟨"Table \x7b // a".toList, none, [
      { name := "id, [pk]".toList, dataType := "int".toList, isPrimaryKey := true, increment := true },
      { name := "\"b\" \\".toList, dataType := "_x".toList, notNull := true, unique := true,
        default := some "now".toList, note := some "/* ''' */".toList }], some "it's\t: \x7d".toList, some "#a0ff".toList⟩,
    ⟨"as.b".toList, none, [{ name := "Note: ".toList, dataType := "text".toList }], none, none⟩]
  relationships := [
    { source := ⟨"x".toList, "y".toList⟩, kind := .manyToMany, target := ⟨"as.b".toList, "Note: ".toList⟩,
      name := some "Ref <>".toList, onDelete := some "set null".toList },
    { source := ⟨"as.b".toList, "Note: ".toList⟩, kind := .forward,
      target := ⟨"Table \x7b // a".toList, "id, [pk]".toList⟩, origin := .inline }]
  enums := [⟨"Enum \x7b".toList, ["\x7d".toList, "//".toList]⟩]

theorem ofText_text_unruly : unruly.Writable ∧ unruly.InlinePlaced ∧ ofText unruly.text = unruly.inReadingOrder ∧
    (ofText unruly.text).relationships.Perm unruly.relationships :=
  have hwritable : unruly.Writable := by decide +kernel
  have hplaced : unruly.InlinePlaced := ⟨by decide +kernel, by decide +kernel⟩
  have hread := ofText_text hwritable
  ⟨hwritable, hplaced, hread.1, hread.2 hplaced⟩

end Schema
end SchemaDiagram
