import Mathlib.Data.List.Forall2
import Mathlib.Data.List.ReduceOption
import SchemaDiagram.Check.Validation
import SchemaDiagram.Proofs.Failure
import SchemaDiagram.Proofs.Schema.Growth

/-! # Extraction from valid texts

Extraction skips what it cannot read and validation reports it. On a text without errors extraction
skips nothing: every block of a table gives a table and every line of it is a note, a reference or a
field of that table.
-/
namespace SchemaDiagram

/-! ## What validity rules out -/

theorem Report.severity_ne_error {r : Report} (h : r.isValid = true) {d : Diagnostic} (hd : d ∈ r.diagnostics) :
    d.severity ≠ .error := by
  intro he
  rw [isValid, errors, List.isEmpty_iff, List.filter_eq_nil_iff] at h
  exact h d hd (by simp [he])

/-- A check that reports errors only reports nothing about a valid text. -/
theorem check_eq_nil {text : Text} (h : (validate text).isValid = true) {check : Source → List Diagnostic}
    (hc : check ∈ checks) (herror : ∀ d ∈ check (Source.ofText text), d.severity = .error) :
    check (Source.ofText text) = [] := by
  apply List.eq_nil_iff_forall_not_mem.mpr
  intro d hd
  exact Report.severity_ne_error h (List.mem_flatMap.mpr ⟨check, hc, hd⟩) (herror d hd)

theorem checkTableNames_eq_nil {text : Text} (h : (validate text).isValid = true) :
    checkTableNames (Source.ofText text) = [] := by
  apply check_eq_nil h (by simp [checks])
  intro d hd
  obtain ⟨⟨s, header⟩, -, hd⟩ := List.mem_filterMap.mp hd
  simp only [Option.ite_none_right_eq_some] at hd
  obtain ⟨-, hd⟩ := hd
  obtain rfl := Option.some.inj hd
  rfl

theorem checkFieldSyntax_eq_nil {text : Text} (h : (validate text).isValid = true) :
    checkFieldSyntax (Source.ofText text) = [] := by
  apply check_eq_nil h (by simp [checks])
  intro d hd
  obtain ⟨s, -, hd⟩ := List.mem_filterMap.mp hd
  simp only [Option.ite_none_left_eq_some] at hd
  obtain ⟨-, hd⟩ := hd
  obtain rfl := Option.some.inj hd
  rfl

theorem checkDuplicates_eq_nil {text : Text} (h : (validate text).isValid = true) :
    checkDuplicates (Source.ofText text) = [] := by
  apply check_eq_nil h (by simp [checks])
  intro d hd
  obtain ⟨name, -, hd⟩ := List.mem_flatMap.mp hd
  split at hd
  · rcases List.mem_cons.mp hd with rfl | hd
    · rfl
    · obtain ⟨_, -, rfl⟩ := List.mem_map.mp hd
      rfl
  · cases hd

theorem nodup_of_checkDuplicates_eq_nil {s : Source} (h : checkDuplicates s = []) :
    ((declarations s.outline).map fun d => d.2.value).Nodup := by
  rw [List.nodup_iff_count]
  intro name
  have hcount : ((declarations s.outline).map fun d => d.2.value).count name =
      (declarationsOf s.outline name).length := by
    rw [List.count_eq_countP, List.countP_map, declarationsOf, ← List.countP_eq_length_filter]
    exact List.countP_congr fun _ _ => by simp
  rw [hcount]
  cases hd : declarationsOf s.outline name with
  | nil => simp
  | cons first rest =>
      have hname : name ∈ declaredNames s.outline := by
        have hf : first ∈ declarationsOf s.outline name := by simp [hd]
        rw [declarationsOf, List.mem_filter, decide_eq_true_eq] at hf
        rw [declaredNames, List.mem_eraseDups]
        exact List.mem_map.mpr ⟨first, hf⟩
      have hnil := List.flatMap_eq_nil_iff.mp h name hname
      cases rest with
      | nil => simp
      | cons second more => simp [hd] at hnil

/-! ## The table of a block -/

@[simp] theorem TableField.name_withSetting (f : TableField) (s : Setting) : (f.withSetting s).name = f.name := by
  simp only [withSetting]
  split <;> (try split) <;> (try split) <;> rfl

@[simp] theorem TableField.dataType_withSetting (f : TableField) (s : Setting) :
    (f.withSetting s).dataType = f.dataType := by
  simp only [withSetting]
  split <;> (try split) <;> (try split) <;> rfl

theorem TableField.foldl_withSetting (settings : List Setting) (f : TableField) :
    (settings.foldl withSetting f).name = f.name ∧ (settings.foldl withSetting f).dataType = f.dataType := by
  induction settings generalizing f with
  | nil => exact ⟨rfl, rfl⟩
  | cons s rest ih => simpa using ih (f.withSetting s)

@[simp] theorem TableField.name_ofHead (head : FieldHead) : (ofHead head).name = head.name :=
  (foldl_withSetting _ _).1

@[simp] theorem TableField.dataType_ofHead (head : FieldHead) : (ofHead head).dataType = head.dataType :=
  (foldl_withSetting _ _).2

theorem Table.foldl_withSetting (settings : List Setting) (t : Table) :
    (settings.foldl withSetting t).name = t.name ∧ (settings.foldl withSetting t).fields = t.fields := by
  induction settings generalizing t with
  | nil => exact ⟨rfl, rfl⟩
  | cons s rest ih =>
      have hstep : (t.withSetting s).name = t.name ∧ (t.withSetting s).fields = t.fields := by
        simp only [withSetting]
        split <;> (try split) <;> exact ⟨rfl, rfl⟩
      simpa [hstep] using ih (t.withSetting s)

def TableLine.head? : TableLine → Option FieldHead
  | .field head => some head
  | _ => none

theorem Table.foldl_withLine (lines : List TableLine) (t : Table) :
    (lines.foldl withLine t).name = t.name ∧
      (lines.foldl withLine t).fields = t.fields ++ (lines.filterMap TableLine.head?).map TableField.ofHead := by
  induction lines generalizing t with
  | nil => simp
  | cons line rest ih =>
      obtain ⟨hname, hfields⟩ := ih (t.withLine line)
      rw [List.foldl_cons, hname, hfields]
      cases line <;> simp [withLine, List.filterMap_cons, TableLine.head?]

namespace Outline

variable {o : Outline}

/-- What a line of a table is, and the field it declares if it is one. -/
inductive Keeps (o : Outline) (s : Statement) : Option FieldHead → Prop
  | note (h : (noteLine? s.text).isSome) : o.Keeps s none
  | reference (r : RefStatement) (hnote : noteLine? s.text = none) (h : RefStatement.read? s.text = some r)
      (hdeclared : o.relationship? s = some (Relationship.ofBody r.body r.name)) : o.Keeps s none
  | field (head : FieldHead) (hnote : noteLine? s.text = none) (href : RefStatement.read? s.text = none)
      (h : FieldHead.read? s.text = some head) (hclosed : head.unterminated = false) : o.Keeps s (some head)

theorem Keeps.head?_read {s : Statement} {head : Option FieldHead} (h : o.Keeps s head) :
    (TableLine.read s.text).head? = head := by
  cases h with
  | note h =>
      obtain ⟨note, hn⟩ := Option.isSome_iff_exists.mp h
      simp [TableLine.read, hn, TableLine.head?]
  | reference r hnote h hdeclared => simp [TableLine.read, hnote, h, TableLine.head?]
  | field head hnote href h hclosed => simp [TableLine.read, hnote, href, h, TableLine.head?]

theorem Keeps.filterMap_head? {statements : List Statement} {heads : List (Option FieldHead)}
    (h : List.Forall₂ o.Keeps statements heads) :
    (statements.map fun s => TableLine.read s.text).filterMap TableLine.head? = heads.reduceOption := by
  induction h with
  | nil => rfl
  | cons hs _ ih =>
      rw [List.map_cons, List.filterMap_cons, hs.head?_read, ih]
      cases hs <;> rfl

/-- The table has the name in the header of the block and all fields that the block has lines for. -/
def Declares (o : Outline) (b : Block) (t : Table) : Prop :=
  (∃ s header name, o.header? b = some s ∧ TableHeader.read? s.text = some header ∧ header.name = some name ∧
    t.name = name.value) ∧
  ∃ heads : List (Option FieldHead), List.Forall₂ o.Keeps ((o.body b).filter (·.opens = none)) heads ∧
    t.fields.map (fun f => (f.name, f.dataType)) = heads.reduceOption.map fun head => (head.name, head.dataType)

theorem table?_eq {b : Block} {s : Statement} {header : TableHeader} {name : Name} (hs : o.header? b = some s)
    (hheader : TableHeader.read? s.text = some header) (hname : header.name = some name) :
    ∃ t relationships, o.table? b = some (t, relationships) ∧ t.name = name.value ∧
      t.fields = ((o.tableLines b).filterMap TableLine.head?).map TableField.ofHead := by
  refine ⟨_, _, table?_of_header hs hheader hname rfl, ?_, ?_⟩
  · rw [(Table.foldl_withLine _ _).1, (Table.foldl_withSetting _ _).1]
  · rw [(Table.foldl_withLine _ _).2, (Table.foldl_withSetting _ _).2]
    rfl

theorem keeps_read {s : Statement} (hopens : s.opens = none) {i : Nat} (hc : s.context = .table i)
    (h : (noteLine? s.text).isSome = true ∨ (FieldHead.read? s.text).any (!·.unterminated) = true) :
    o.Keeps s (TableLine.read s.text).head? := by
  cases hnote : noteLine? s.text with
  | some note =>
      simp only [TableLine.read, hnote, TableLine.head?]
      exact .note (by simp [hnote])
  | none =>
      cases href : RefStatement.read? s.text with
      | some r =>
          have hdeclared : o.relationship? s = some (Relationship.ofBody r.body r.name) := by
            simp [relationship?, hopens, hc, href]
          simpa [TableLine.read, hnote, href, TableLine.head?] using Keeps.reference r hnote href hdeclared
      | none =>
          obtain ⟨head, hhead, hclosed⟩ : ∃ head, FieldHead.read? s.text = some head ∧ head.unterminated = false := by
            simpa [hnote, Option.any_eq_true] using h
          simpa [TableLine.read, hnote, href, hhead, TableLine.head?] using .field head hnote href hhead hclosed

end Outline

/-! ## Valid texts -/

theorem exists_name_of_isValid {text : Text} (h : (validate text).isValid = true) {b : Block} {s : Statement}
    {header : TableHeader} (hb : b ∈ (Source.ofText text).outline.blocks) (hk : b.kind = .table)
    (hs : (Source.ofText text).outline.header? b = some s) (hheader : TableHeader.read? s.text = some header) :
    ∃ name, header.name = some name := by
  have hmem : (s, header) ∈ tableHeaders (Source.ofText text).outline := by
    refine List.mem_filterMap.mpr ⟨b, by simp [hb, hk], ?_⟩
    simp [hs, hheader]
  have hnone := List.filterMap_eq_nil_iff.mp (checkTableNames_eq_nil h) _ hmem
  cases hname : header.name with
  | none => simp [hname] at hnone
  | some name => exact ⟨name, rfl⟩

theorem keeps_of_isValid {text : Text} (h : (validate text).isValid = true) {s : Statement} {i : Nat}
    (hs : s ∈ (Source.ofText text).outline.statements) (hc : s.context = .table i) (hopens : s.opens = none) :
    (Source.ofText text).outline.Keeps s (TableLine.read s.text).head? := by
  have hmem : s ∈ tableStatements (Source.ofText text).outline := by
    simp [tableStatements, hs, hc, hopens, Context.isTable]
  have hform := List.filterMap_eq_nil_iff.mp (checkFieldSyntax_eq_nil h) s hmem
  simp only [ite_eq_left_iff, reduceCtorEq, imp_false, not_not, Bool.or_eq_true] at hform
  exact Outline.keeps_read hopens hc hform

theorem declares_of_isValid {text : Text} (h : (validate text).isValid = true) {b : Block}
    (hb : b ∈ (Source.ofText text).outline.blocks) (hk : b.kind = .table) :
    ∃ t relationships, (Source.ofText text).outline.table? b = some (t, relationships) ∧
      (Source.ofText text).outline.Declares b t := by
  have hcons := Outline.consistent_ofText text
  obtain ⟨j, s, hj, hsj, ht⟩ := hcons.header_of_table b hb hk
  have hs : (Source.ofText text).outline.header? b = some s := by rw [Outline.header?, hj, Option.bind_some, hsj]
  obtain ⟨header, hheader⟩ := BlockKind.ofHeader_eq_table_iff_header.mp ht
  obtain ⟨name, hname⟩ := exists_name_of_isValid h hb hk hs hheader
  obtain ⟨t, relationships, htable, htname, hfields⟩ := Outline.table?_eq hs hheader hname
  refine ⟨t, relationships, htable, ⟨s, header, name, hs, hheader, hname, htname⟩, ?_⟩
  obtain ⟨i, hi⟩ := List.getElem?_of_mem hb
  have hkeeps : List.Forall₂ (Source.ofText text).outline.Keeps
      (((Source.ofText text).outline.body b).filter (·.opens = none))
      ((((Source.ofText text).outline.body b).filter (·.opens = none)).map fun s => (TableLine.read s.text).head?) := by
    rw [List.forall₂_map_right_iff, List.forall₂_same]
    intro s hs
    obtain ⟨hsb, hopens⟩ := List.mem_filter.mp hs
    have hc := hcons.context_of_mem_body hi hsb
    rw [hk] at hc
    have hmem : s ∈ (Source.ofText text).outline.statements := by
      rw [hcons.body_eq_filter hi] at hsb
      exact (List.mem_filter.mp hsb).1
    exact keeps_of_isValid h hmem hc (by simpa using hopens)
  refine ⟨_, hkeeps, ?_⟩
  rw [hfields, ← Outline.Keeps.filterMap_head? hkeeps]
  simp [Outline.tableLines, Function.comp_def]

/-! ## Tables and their declarations -/

/-- The table is that of a block, and it has its name from where the header of the block is written. -/
structure Outline.DeclaredAt (o : Outline) (t : Table) (site : Statement × Name) : Prop where
  name_eq : t.name = site.2.value
  exists_block : ∃ b ∈ o.blocks, b.kind = .table ∧ o.header? b = some site.1 ∧ (o.table? b).map Prod.fst = some t
  exists_header : ∃ header, TableHeader.read? site.1.text = some header ∧ header.name = some site.2

/-- The declaration in the header of a block. -/
def Outline.declaration? (o : Outline) (b : Block) : Option (Statement × Name) := do
  let statement ← o.header? b
  let header ← TableHeader.read? statement.text
  let name ← header.name
  return (statement, name)

theorem declarations_eq (o : Outline) :
    declarations o = (o.blocks.filter (·.kind = .table)).filterMap o.declaration? := by
  rw [declarations, tableHeaders, List.filterMap_filterMap]
  refine List.filterMap_congr fun b _ => ?_
  cases hs : o.header? b with
  | none => simp [Outline.declaration?, hs]
  | some s =>
      cases hheader : TableHeader.read? s.text with
      | none => simp [Outline.declaration?, hs, hheader]
      | some header => cases hname : header.name <;> simp [Outline.declaration?, hs, hheader, hname]

namespace Outline

variable {o : Outline}

/-- A block gives a table if its header declares a name, and then it is the table of that name. -/
theorem rel_table?_declaration? {b : Block} (hb : b ∈ o.blocks) (hk : b.kind = .table) :
    Option.Rel o.DeclaredAt ((o.table? b).map Prod.fst) (o.declaration? b) := by
  cases hs : o.header? b with
  | none => simp [table?, declaration?, hs]
  | some s =>
      cases hheader : TableHeader.read? s.text with
      | none => simp [table?, declaration?, hs, hheader]
      | some header =>
          cases hname : header.name with
          | none => simp [table?, declaration?, hs, hheader, hname]
          | some name =>
              obtain ⟨t, relationships, htable, htname, -⟩ := table?_eq hs hheader hname
              have hdeclared : o.DeclaredAt t (s, name) :=
                ⟨htname, ⟨b, hb, hk, hs, by rw [htable]; rfl⟩, header, hheader, hname⟩
              simpa [htable, declaration?, hs, hheader, hname] using Option.Rel.some hdeclared

theorem forall₂_declaredAt (o : Outline) : List.Forall₂ o.DeclaredAt (o.tables.map Prod.fst) (declarations o) := by
  have hsame : List.Forall₂ (fun b b' => b = b' ∧ b ∈ o.blocks ∧ b.kind = .table)
      (o.blocks.filter (·.kind = .table)) (o.blocks.filter (·.kind = .table)) := by
    refine List.forall₂_same.mpr fun b hb => ?_
    obtain ⟨hb, hk⟩ := List.mem_filter.mp hb
    exact ⟨rfl, hb, by simpa using hk⟩
  rw [declarations_eq, tables, List.map_filterMap]
  refine List.rel_filterMap ?_ hsame
  rintro b _ ⟨rfl, hb, hk⟩
  exact rel_table?_declaration? hb hk

end Outline

theorem Schema.names_ofText (text : Text) :
    (Schema.ofText text).tables.map Table.name =
      (declarations (Source.ofText text).outline).map fun d => d.2.value := by
  rw [← List.forall₂_eq_eq_eq, List.forall₂_map_left_iff, List.forall₂_map_right_iff]
  exact (Source.ofText text).outline.forall₂_declaredAt.imp fun _ _ h => h.name_eq

/-! ## Relationships -/

theorem Outline.origin_of_mem_tables {o : Outline} {r : Relationship} (h : r ∈ o.tables.flatMap Prod.snd) :
    r.origin = .inline := by
  obtain ⟨⟨t, relationships⟩, ht, hr⟩ := List.mem_flatMap.mp h
  obtain ⟨b, -, hb⟩ := List.mem_filterMap.mp ht
  simp only [table?, Option.bind_eq_bind, Option.bind_eq_some_iff, Option.pure_def, Option.some.injEq,
    Prod.mk.injEq] at hb
  obtain ⟨_, _, _, _, _, _, -, rfl⟩ := hb
  obtain ⟨line, -, hline⟩ := List.mem_flatMap.mp hr
  split at hline
  · obtain ⟨s, -, hs⟩ := List.mem_filterMap.mp hline
    rw [Option.ite_none_right_eq_some] at hs
    obtain ⟨_, -, rfl⟩ := Option.map_eq_some_iff.mp hs.2
    rfl
  · cases hline

theorem Outline.origin_of_relationship? {o : Outline} {s : Statement} {r : Relationship}
    (h : o.relationship? s = some r) : r.origin = .standalone := by
  simp only [relationship?] at h
  split at h
  · split at h
    all_goals
      obtain ⟨_, -, rfl⟩ := Option.map_eq_some_iff.mp h
      rfl
  · cases h

theorem Outline.origin_of_mem_standalone {o : Outline} {r : Relationship} (h : r ∈ o.standaloneRelationships) :
    r.origin = .standalone := by
  obtain ⟨s, -, hs⟩ := List.mem_filterMap.mp h
  exact origin_of_relationship? hs

/-- Aliases do not matter for where a relationship comes from. -/
theorem Schema.filter_origin_ofText (text : Text) (origin : RelationOrigin) :
    (Schema.ofText text).relationships.filter (·.origin = origin) =
      (((Source.ofText text).outline.tables.flatMap Prod.snd).filter (·.origin = origin) ++
        (Source.ofText text).outline.standaloneRelationships.filter (·.origin = origin)).map
          (·.resolve (Schema.ofText text).tables) := by
  have horigin : (fun r => decide (Relationship.origin r = origin)) ∘
      Relationship.resolve (Source.ofText text).outline.written.tables = fun r => decide (r.origin = origin) := rfl
  rw [Schema.ofText, resolveAliases, List.filter_map, horigin, Outline.written, List.filter_append]

theorem Schema.standalone_ofText (text : Text) :
    (Schema.ofText text).relationships.filter (·.origin = .standalone) =
      (Source.ofText text).outline.standaloneRelationships.map (·.resolve (Schema.ofText text).tables) := by
  rw [filter_origin_ofText, List.filter_eq_nil_iff.mpr, List.filter_eq_self.mpr, List.nil_append]
  · exact fun r hr => decide_eq_true (Outline.origin_of_mem_standalone hr)
  · exact fun r hr => by simp [Outline.origin_of_mem_tables hr]

theorem Schema.inline_ofText (text : Text) :
    (Schema.ofText text).relationships.filter (·.origin = .inline) =
      ((Source.ofText text).outline.tables.flatMap Prod.snd).map (·.resolve (Schema.ofText text).tables) := by
  rw [filter_origin_ofText, List.filter_eq_self.mpr, List.filter_eq_nil_iff.mpr, List.append_nil]
  · exact fun r hr => by simp [Outline.origin_of_mem_standalone hr]
  · exact fun r hr => decide_eq_true (Outline.origin_of_mem_tables hr)

/-- Extraction loses nothing of a valid text: every block of a table gives one table, with all its lines
and a name of its own, and every reference that is read gives one relationship. -/
theorem Schema.ofText_lossless {text : Text} (h : (validate text).isValid = true) :
    ((Schema.ofText text).tables.map Table.name).Nodup ∧
    List.Forall₂ (Source.ofText text).outline.Declares
      ((Source.ofText text).outline.blocks.filter (·.kind = .table)) (Schema.ofText text).tables ∧
    (Schema.ofText text).relationships.filter (·.origin = .standalone) =
      (Source.ofText text).outline.standaloneRelationships.map (·.resolve (Schema.ofText text).tables) := by
  refine ⟨?_, ?_, Schema.standalone_ofText text⟩
  · rw [names_ofText]
    exact nodup_of_checkDuplicates_eq_nil (checkDuplicates_eq_nil h)
  · have htables : (Schema.ofText text).tables = (Source.ofText text).outline.tables.map Prod.fst := rfl
    rw [htables, List.forall₂_map_right_iff, Outline.tables]
    apply forall₂_filterMap
    intro b hb
    obtain ⟨hb, hk⟩ := List.mem_filter.mp hb
    obtain ⟨t, relationships, ht, hd⟩ := declares_of_isValid h hb (by simpa using hk)
    exact ⟨_, ht, hd⟩

/-- Two tables with fields, a note, a block of indexes and a reference on a line of a table. -/
def twoTables : Text :=
  "Table users \x7b\n  id int [pk]\n  Note: 'people'\n  email varchar(255) [unique]\n\x7d\n".toList ++
  "Table orders as o \x7b\n  id int\n  user_id int [ref: > users.id]\n  Ref self: o.id - orders.id\n".toList ++
  "  indexes \x7b\n    id\n  \x7d\n\x7d\n".toList

theorem Schema.ofText_lossless_twoTables :
    (validate twoTables).isValid = true ∧
    ((Schema.ofText twoTables).tables.map Table.name).Nodup ∧
    List.Forall₂ (Source.ofText twoTables).outline.Declares
      ((Source.ofText twoTables).outline.blocks.filter (·.kind = .table)) (Schema.ofText twoTables).tables ∧
    (Schema.ofText twoTables).relationships.filter (·.origin = .standalone) =
      (Source.ofText twoTables).outline.standaloneRelationships.map (·.resolve (Schema.ofText twoTables).tables) :=
  have hvalid : (validate twoTables).isValid = true := by decide +kernel
  ⟨hvalid, Schema.ofText_lossless hvalid⟩

end SchemaDiagram
