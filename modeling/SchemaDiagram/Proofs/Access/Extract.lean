import SchemaDiagram.Schema.Extract
import SchemaDiagram.Proofs.Access.Check

/-! # Checked extraction

Extraction asks for blocks and statements by their indices and reads statements by their tokens. With the checks
of a text it makes up all that is read of it, and no access of either fails.
-/
namespace SchemaDiagram
namespace Access

variable {o : Outline}

/-! ## Tables -/

def tableLineOf (text : Text) : Access TableLine := do
  match ← lookUp text (noteLine? text) with
  | some note => return .note note
  | none =>
    if (← readRefStatement text).isSome then return .reference
    else match ← readField text with
      | some head => return .field head
      | none => return .unreadable

theorem tableLineOf_eq (text : Text) : tableLineOf text = .ok (TableLine.read text) := by
  rw [tableLineOf, lookUp_eq, ok_bind, TableLine.read]
  cases noteLine? text with
  | some note => rfl
  | none =>
      simp only [readRefStatement_eq, ok_bind, readField_eq]
      split
      · rfl
      · cases FieldHead.read? text <;> rfl

def fieldOf (head : FieldHead) : Access TableField :=
  head.settings.foldlM (fun f s => lookUp s.text (f.withSetting s)) { name := head.name, dataType := head.dataType }

theorem fieldOf_eq (head : FieldHead) : fieldOf head = .ok (TableField.ofHead head) :=
  (foldlM_eq (P := fun _ => True) (fun _ _ _ _ => ⟨lookUp_eq _ _, trivial⟩) trivial).1

def inlineRelationshipsOf (table : Text) (head : FieldHead) : Access (List Relationship) :=
  eachSome (fun s =>
    if s.hasKey "ref" then do
      let target ← lookUp s.text (inlineRef? s.text)
      return target.map fun (kind, target) =>
        { source := ⟨table, head.name⟩, kind, target := Endpoint.ofName target, origin := .inline }
    else return none) head.settings

theorem inlineRelationshipsOf_eq (table : Text) (head : FieldHead) :
    inlineRelationshipsOf table head = .ok (inlineRelationships table head) := by
  refine eachSome_eq fun s _ => ?_
  split
  · rw [lookUp_eq, ok_bind]
    rfl
  · rfl

/-- The relationships that a line of a table declares. -/
def declaredBy (table : Text) : TableLine → List Relationship
  | .field head => inlineRelationships table head
  | _ => []

/-- The table with a line of its block, and with the relationships so far those that the line declares. -/
def withLineOf (found : Table × List Relationship) (line : TableLine) : Access (Table × List Relationship) :=
  match line with
  | .field head => do
    let field ← fieldOf head
    let declared ← inlineRelationshipsOf found.1.name head
    return ({ found.1 with fields := found.1.fields ++ [field] }, found.2 ++ declared)
  | line => return (found.1.withLine line, found.2)

theorem withLineOf_eq (found : Table × List Relationship) (line : TableLine) :
    withLineOf found line = .ok (found.1.withLine line, found.2 ++ declaredBy found.1.name line) := by
  cases line with
  | field head =>
      simp only [withLineOf, fieldOf_eq, inlineRelationshipsOf_eq, ok_bind]
      rfl
  | _ => simp [withLineOf, declaredBy]

theorem name_withLine (table : Table) (line : TableLine) : (table.withLine line).name = table.name := by
  cases line <;> rfl

theorem foldlM_withLineOf_eq (table : Table) (declared : List Relationship) (lines : List TableLine) :
    lines.foldlM withLineOf (table, declared) =
      .ok (lines.foldl Table.withLine table, declared ++ lines.flatMap (declaredBy table.name)) := by
  induction lines generalizing table declared with
  | nil => simp
  | cons line rest ih =>
      rw [List.foldlM_cons, withLineOf_eq, ok_bind, ih, name_withLine, List.foldl_cons, List.flatMap_cons,
        List.append_assoc]

def tableOf (o : Outline) (block : Nat) : Access (Option (Table × List Relationship)) := do
  let b ← index o.blocks block
  let some statement ← headerOf o b | return none
  let some header ← readTableHeader statement.text | return none
  let some name := header.name | return none
  let table ← header.settings.foldlM (fun table s => lookUp s.text (table.withSetting s))
    { name := name.value, otherName := header.otherName }
  let lines ← each (fun s => tableLineOf s.text) ((← bodyOf o b).filter (·.opens = none))
  return some (← lines.foldlM withLineOf (table, []))

theorem tableOf_eq (h : o.Consistent) {block : Nat} {b : Block} (hb : o.blocks[block]? = some b) :
    tableOf o block = .ok (o.table? b) := by
  have hmem := List.mem_of_getElem? hb
  rw [tableOf, index_eq hb, ok_bind, headerOf_eq h hmem, ok_bind, Outline.table?]
  cases o.header? b with
  | none => rfl
  | some statement =>
      simp only [readTableHeader_eq, ok_bind]
      cases hread : TableHeader.read? statement.text with
      | none => simp [hread]
      | some header =>
          cases hname : header.name with
          | none => simp [hread, hname]
          | some name =>
              have hsettings : ∀ table : Table,
                  header.settings.foldlM (fun table s => lookUp s.text (table.withSetting s)) table =
                    .ok (header.settings.foldl Table.withSetting table) := fun _ =>
                (foldlM_eq (P := fun _ => True) (fun _ _ _ _ => ⟨lookUp_eq _ _, trivial⟩) trivial).1
              have hlines : each (fun s => tableLineOf s.text) ((o.body b).filter (·.opens = none)) =
                  .ok (o.tableLines b) := each_eq fun s _ => tableLineOf_eq s.text
              simp only [hname, hsettings, bodyOf_eq h hmem, ok_bind, hlines, foldlM_withLineOf_eq]
              simp only [hread, hname, Option.bind_eq_bind, Option.bind_some, Option.pure_def, List.nil_append,
                pure_eq_ok]
              rfl

/-! ## Blocks of one kind -/

/-- What the blocks of one kind declare, when asked for by their indices. -/
def eachOfKind {β : Type} (o : Outline) (kind : BlockKind) (f : Nat → Access (Option β)) : Access (List β) :=
  eachSome (fun (b, i) => if b.kind = kind then f i else return none) o.blocks.zipIdx

theorem eachOfKind_eq {β : Type} {f : Nat → Access (Option β)} {g : Block → Option β}
    (h : ∀ i b, o.blocks[i]? = some b → f i = .ok (g b)) (kind : BlockKind) :
    eachOfKind o kind f = .ok ((o.blocks.filter (·.kind = kind)).filterMap g) := by
  have heach : eachOfKind o kind f =
      .ok (o.blocks.zipIdx.filterMap ((fun b => if b.kind = kind then g b else none) ∘ Prod.fst)) := by
    refine eachSome_eq fun entry hmem => ?_
    obtain ⟨b, i⟩ := entry
    simp only [Function.comp_apply]
    split
    · exact h i b (List.mk_mem_zipIdx_iff_getElem?.mp hmem)
    · rfl
  rw [heach, ← List.filterMap_map, List.zipIdx_map_fst, List.filterMap_filter]
  simp only [decide_eq_true_eq]

def tablesOf (o : Outline) : Access (List (Table × List Relationship)) := eachOfKind o .table (tableOf o)

theorem tablesOf_eq (h : o.Consistent) : tablesOf o = .ok o.tables := eachOfKind_eq (fun _ _ => tableOf_eq h) .table

def enumOf (o : Outline) (block : Nat) : Access (Option Enum) := do
  let b ← index o.blocks block
  let some statement ← headerOf o b | return none
  let some name ← lookUp statement.text (enumHeader? statement.text) | return none
  return some ⟨name.value, ← eachSome (fun s => lookUpFirst s.text (enumValue? s.text)) (← bodyOf o b)⟩

theorem enumOf_eq (h : o.Consistent) {block : Nat} {b : Block} (hb : o.blocks[block]? = some b) :
    enumOf o block = .ok (o.enum? b) := by
  have hmem := List.mem_of_getElem? hb
  rw [enumOf, index_eq hb, ok_bind, headerOf_eq h hmem, ok_bind, Outline.enum?]
  cases o.header? b with
  | none => rfl
  | some statement =>
      simp only [lookUp_eq, ok_bind]
      cases hread : enumHeader? statement.text with
      | none => simp [hread]
      | some name =>
          have hvalues : eachSome (fun s => lookUpFirst s.text (enumValue? s.text)) (o.body b) =
              .ok ((o.body b).filterMap fun s => enumValue? s.text) := eachSome_eq fun _ _ => lookUpFirst_eq _ _
          simp [hread, bodyOf_eq h hmem, hvalues]

def enumsOf (o : Outline) : Access (List Enum) := eachOfKind o .enum (enumOf o)

theorem enumsOf_eq (h : o.Consistent) : enumsOf o = .ok o.enums := eachOfKind_eq (fun _ _ => enumOf_eq h) .enum

/-! ## Standalone relationships -/

def refBlockNameOf (o : Outline) (block : Nat) : Access (Option Text) := do
  let some statement ← headerOf o (← index o.blocks block) | return none
  return (← readTokens statement.text)[1]?.bind (·.name?)

theorem refBlockNameOf_eq (h : o.Consistent) {block : Nat} {b : Block} (hb : o.blocks[block]? = some b) :
    refBlockNameOf o block = .ok (o.refBlockName block) := by
  rw [refBlockNameOf, index_eq hb, ok_bind, headerOf_eq h (List.mem_of_getElem? hb), ok_bind, Outline.refBlockName, hb]
  cases hs : o.header? b with
  | none => simp [hs]
  | some statement =>
      simp only [readTokens_eq]
      simp [hs]

def relationshipOf (o : Outline) (s : Statement) : Access (Option Relationship) :=
  if s.opens = none then
    match s.context with
    | .ref block => do
      let some body ← readRefBody s.text | return none
      return some (Relationship.ofBody body (← refBlockNameOf o block))
    | _ => do return (← readRefStatement s.text).map fun r => Relationship.ofBody r.body r.name
  else return none

/-- The block that a statement stands in is one of the outline. -/
theorem exists_of_context_ref (h : o.Consistent) {s : Statement} (hs : s ∈ o.statements) {block : Nat}
    (hc : s.context = .ref block) : ∃ b, o.blocks[block]? = some b := by
  have hmem : Context.ref block ∈ o.contexts := hc ▸ List.mem_map_of_mem hs
  obtain ⟨kind, hkind, -⟩ := h.context_eq _ hmem block rfl
  obtain ⟨b, hb, -⟩ := Option.map_eq_some_iff.mp (List.getElem?_map .. ▸ hkind)
  exact ⟨b, hb⟩

theorem relationshipOf_eq (h : o.Consistent) {s : Statement} (hs : s ∈ o.statements) :
    relationshipOf o s = .ok (o.relationship? s) := by
  rw [relationshipOf, Outline.relationship?]
  split
  · cases hc : s.context with
    | ref block =>
        obtain ⟨b, hb⟩ := exists_of_context_ref h hs hc
        simp only [readRefBody_eq, ok_bind, refBlockNameOf_eq h hb]
        cases RefBody.read? s.text <;> rfl
    | _ => simp only [readRefStatement_eq, ok_bind, pure_eq_ok]
  · rfl

/-! ## All that is read -/

def readSchema (t : Text) : Access Schema := do
  let outline := (← readSource t).outline
  let tables ← tablesOf outline
  let enums ← enumsOf outline
  let standalone ← eachSome (relationshipOf outline) outline.statements
  let written : Schema := ⟨tables.map Prod.fst, tables.flatMap Prod.snd ++ standalone, enums⟩
  return written.resolveAliases

theorem readSchema_eq (t : Text) : readSchema t = .ok (Schema.ofText t) := by
  have h : (Source.ofText t).outline.Consistent := Outline.consistent_ofText t
  have hstandalone : eachSome (relationshipOf (Source.ofText t).outline) (Source.ofText t).outline.statements =
      .ok (Source.ofText t).outline.standaloneRelationships := eachSome_eq fun _ hs => relationshipOf_eq h hs
  rw [readSchema, readSource_eq, ok_bind]
  simp only [tablesOf_eq h, enumsOf_eq h, hstandalone, ok_bind]
  rfl

/-- The result, or what stands in for it when an access is not possible. -/
def unlessFault {α : Type} (fallback : α) : Access α → α
  | .ok a => a
  | .error _ => fallback

def guardedReport (t : Text) : Report :=
  unlessFault ⟨[Diagnostic.mark .error 1 1 2 "Internal validation error"]⟩ (readReport t)

def guardedSchema (t : Text) : Schema := unlessFault {} (readSchema t)

/-- No access fails for any text: both readers get to what the library defines, and what stands in for it is
never used. -/
theorem reads_without_fault (t : Text) :
    (readReport t = .ok (validate t) ∧ guardedReport t = validate t) ∧
      readSchema t = .ok (Schema.ofText t) ∧ guardedSchema t = Schema.ofText t := by
  have hreport := readReport_eq t
  have hschema := readSchema_eq t
  refine ⟨⟨hreport, ?_⟩, hschema, ?_⟩
  · rw [guardedReport, hreport, unlessFault]
  · rw [guardedSchema, hschema, unlessFault]

end Access
end SchemaDiagram
