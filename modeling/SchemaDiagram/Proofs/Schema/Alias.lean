import SchemaDiagram.Proofs.Schema.Lossless

/-! # Names in place of aliases

A word in a relationship stands for a table: the name of a table for itself, and an alias for the first table that
declares it, unless some table has it as its name. What a word stands for is no alias any more, or a name as well,
so one pass over the relationships is enough.
-/
namespace SchemaDiagram

/-! ## What a word stands for -/

/-- Some table has this name. -/
def IsTableName (tables : List Table) (name : Text) : Prop := ∃ t ∈ tables, t.name = name

/-- Some table declares this alias. -/
def IsAlias (tables : List Table) (name : Text) : Prop := ∃ t ∈ tables, t.otherName = some name

/-- No table before `t` declares the alias that `t` declares. -/
def FirstWithAlias (tables : List Table) (name : Text) (t : Table) : Prop :=
  ∃ before after, tables = before ++ t :: after ∧ t.otherName = some name ∧ ∀ u ∈ before, u.otherName ≠ some name

/-- The name that a word in a relationship stands for. -/
inductive StandsFor (tables : List Table) (name : Text) : Text → Prop
  | itself (h : IsTableName tables name ∨ ¬IsAlias tables name) : StandsFor tables name name
  | first {t} (hname : ¬IsTableName tables name) (ht : FirstWithAlias tables name t) : StandsFor tables name t.name

variable {tables : List Table} {name : Text}

theorem any_name_iff : tables.any (·.name = name) = true ↔ IsTableName tables name := by
  simp [IsTableName]

theorem FirstWithAlias.mem {t : Table} (h : FirstWithAlias tables name t) : t ∈ tables := by
  obtain ⟨before, after, rfl, -, -⟩ := h
  simp

theorem firstWithAlias_iff {t : Table} :
    FirstWithAlias tables name t ↔ tables.find? (·.otherName = some name) = some t := by
  rw [FirstWithAlias, List.find?_eq_some_iff_append]
  constructor
  · rintro ⟨before, after, htables, hname, hbefore⟩
    exact ⟨decide_eq_true hname, before, after, htables, fun u hu => by simpa using hbefore u hu⟩
  · rintro ⟨hname, before, after, htables, hbefore⟩
    exact ⟨before, after, htables, of_decide_eq_true hname, fun u hu => by simpa using hbefore u hu⟩

theorem find?_alias_eq_none_iff : tables.find? (·.otherName = some name) = none ↔ ¬IsAlias tables name := by
  simp [IsAlias]

theorem standsFor_resolveName (tables : List Table) (name : Text) :
    StandsFor tables name (resolveName tables name) := by
  rw [resolveName]
  split
  · next hname => exact .itself (.inl (any_name_iff.mp hname))
  · next hname =>
      split
      · next t ht => exact .first (fun h => hname (any_name_iff.mpr h)) (firstWithAlias_iff.mpr ht)
      · next hnone => exact .itself (.inr (find?_alias_eq_none_iff.mp hnone))

theorem StandsFor.eq_resolveName {real : Text} (h : StandsFor tables name real) : real = resolveName tables name := by
  rw [resolveName]
  cases h with
  | itself h =>
      split
      · rfl
      · next hname =>
          have halias := h.resolve_left fun h => hname (any_name_iff.mpr h)
          rw [find?_alias_eq_none_iff.mpr halias]
  | first hname ht => rw [if_neg fun h => hname (any_name_iff.mp h), firstWithAlias_iff.mp ht]

/-- What a word stands for is the name of a table, unless it is no alias. -/
theorem StandsFor.isTableName_or {real : Text} (h : StandsFor tables name real) :
    IsTableName tables real ∨ ¬IsAlias tables real := by
  cases h with
  | itself h => exact h
  | @first t _ ht => exact .inl ⟨t, ht.mem, rfl⟩

theorem resolveName_of_isTableName (h : IsTableName tables name) : resolveName tables name = name :=
  (StandsFor.itself (.inl h)).eq_resolveName.symm

theorem resolveName_resolveName (tables : List Table) (name : Text) :
    resolveName tables (resolveName tables name) = resolveName tables name :=
  (StandsFor.itself (standsFor_resolveName tables name).isTableName_or).eq_resolveName.symm

/-! ## Relationships -/

/-- The end `e'` names the table that `e` stands for, and the same field. -/
structure Endpoint.Resolved (tables : List Table) (e e' : Endpoint) : Prop where
  table : StandsFor tables e.table e'.table
  field_eq : e'.field = e.field

/-- Both ends are resolved, and nothing else is different. -/
structure Relationship.Resolved (tables : List Table) (r r' : Relationship) : Prop where
  source : r.source.Resolved tables r'.source
  target : r.target.Resolved tables r'.target
  rest_eq : r' = { r with source := r'.source, target := r'.target }

theorem Endpoint.resolved_resolve (tables : List Table) (e : Endpoint) : e.Resolved tables (e.resolve tables) :=
  ⟨standsFor_resolveName tables e.table, rfl⟩

theorem Relationship.resolved_resolve (tables : List Table) (r : Relationship) :
    r.Resolved tables (r.resolve tables) :=
  ⟨r.source.resolved_resolve tables, r.target.resolved_resolve tables, rfl⟩

theorem Relationship.resolve_resolve (tables : List Table) (r : Relationship) :
    (r.resolve tables).resolve tables = r.resolve tables := by
  simp [Relationship.resolve, Endpoint.resolve, resolveName_resolveName]

theorem Schema.resolveAliases_resolveAliases (s : Schema) : s.resolveAliases.resolveAliases = s.resolveAliases := by
  simp only [resolveAliases, List.map_map]
  congr 1
  exact List.map_congr_left fun r _ => r.resolve_resolve s.tables

/-! ## Relationships of fields -/

/-- The relationship starts at a field of the table. -/
def Relationship.StartsIn (r : Relationship) (t : Table) : Prop := ∃ f ∈ t.fields, r.source = ⟨t.name, f.name⟩

namespace Outline

/-- The relationships that fields declare, each with the table of its field. -/
def ownedRelationships (o : Outline) : List (Table × Relationship) :=
  o.tables.flatMap fun (t, relationships) => relationships.map (t, ·)

theorem startsIn_of_mem_relationships {lines : List TableLine} {t : Table} {r : Relationship}
    (h : r ∈ lines.flatMap (TableLine.relationships t.name)) : r.StartsIn (lines.foldl Table.withLine t) := by
  obtain ⟨hname, hfields⟩ := Table.foldl_withLine lines t
  obtain ⟨line, hline, hr⟩ := List.mem_flatMap.mp h
  cases line with
  | field head =>
      obtain ⟨s, -, hs⟩ := List.mem_filterMap.mp hr
      obtain ⟨-, hs⟩ := Option.ite_none_right_eq_some.mp hs
      obtain ⟨_, -, rfl⟩ := Option.map_eq_some_iff.mp hs
      have hhead : head ∈ lines.filterMap TableLine.head? := List.mem_filterMap.mpr ⟨_, hline, rfl⟩
      refine ⟨TableField.ofHead head, ?_, ?_⟩
      · rw [hfields]
        exact List.mem_append_right _ (List.mem_map_of_mem hhead)
      · rw [hname, TableField.name_ofHead]
  | _ => cases hr

variable {o : Outline}

theorem startsIn_of_mem_tables {t : Table} {relationships : List Relationship} (h : (t, relationships) ∈ o.tables)
    {r : Relationship} (hr : r ∈ relationships) : r.StartsIn t := by
  obtain ⟨b, -, hb⟩ := List.mem_filterMap.mp h
  have htable := hb
  simp only [table?, Option.bind_eq_bind, Option.bind_eq_some_iff] at htable
  obtain ⟨s, hs, header, hheader, name, hname, -⟩ := htable
  rw [table?_of_header hs hheader hname rfl] at hb
  obtain ⟨rfl, rfl⟩ := Prod.mk.inj (Option.some.inj hb)
  exact startsIn_of_mem_relationships hr

theorem mem_ownedRelationships {owned : Table × Relationship} (h : owned ∈ o.ownedRelationships) :
    owned.1 ∈ o.tables.map Prod.fst ∧ owned.2.StartsIn owned.1 := by
  obtain ⟨⟨t, relationships⟩, ht, hr⟩ := List.mem_flatMap.mp h
  obtain ⟨r, hrelationship, rfl⟩ := List.mem_map.mp hr
  exact ⟨List.mem_map_of_mem ht, startsIn_of_mem_tables ht hrelationship⟩

theorem map_snd_ownedRelationships (o : Outline) : o.ownedRelationships.map Prod.snd = o.tables.flatMap Prod.snd := by
  have hsnd : ∀ t : Table, Prod.snd ∘ (fun r : Relationship => (t, r)) = id := fun _ => rfl
  rw [ownedRelationships, List.map_flatMap]
  exact List.flatMap_congr fun d _ => by rw [List.map_map, hsnd, List.map_id]

end Outline

/-- The field that declares a relationship is still its source behind the pass. -/
theorem Relationship.Resolved.source_eq {t : Table} {r r' : Relationship} (h : r.Resolved tables r')
    (ht : t ∈ tables) (howned : r.StartsIn t) : r'.source = r.source := by
  obtain ⟨f, -, hsource⟩ := howned
  have hname : IsTableName tables r.source.table := ⟨t, ht, by rw [hsource]⟩
  have htable := h.source.table.eq_resolveName.trans (resolveName_of_isTableName hname)
  calc r'.source = ⟨r'.source.table, r'.source.field⟩ := rfl
    _ = r.source := by rw [htable, h.source.field_eq]

/-! ## The schema of a text -/

/-- The relationships of a schema are those that are written, in their order, with every end resolved and nothing
else changed. No end is left that is an alias only; a relationship that a field declares starts at that field, in
the table of that field; and there is nothing left to resolve. -/
theorem Schema.ofText_resolved (text : Text) :
    let o := (Source.ofText text).outline
    let schema := Schema.ofText text
    schema = { o.written with relationships := schema.relationships } ∧
    List.Forall₂ (Relationship.Resolved schema.tables) o.written.relationships schema.relationships ∧
    (∀ r ∈ schema.relationships, ∀ e ∈ [r.source, r.target],
      IsAlias schema.tables e.table → IsTableName schema.tables e.table) ∧
    List.Forall₂ (fun owned r => owned.1 ∈ schema.tables ∧ owned.2.Resolved schema.tables r ∧ r.StartsIn owned.1)
      o.ownedRelationships (schema.relationships.filter (·.origin = .inline)) ∧
    schema.resolveAliases = schema := by
  intro o schema
  refine ⟨rfl, ?_, ?_, ?_, resolveAliases_resolveAliases o.written⟩
  · have hrelationships : schema.relationships = o.written.relationships.map (·.resolve schema.tables) := rfl
    rw [hrelationships, List.forall₂_map_right_iff, List.forall₂_same]
    exact fun r _ => r.resolved_resolve schema.tables
  · intro r hr e he halias
    obtain ⟨written, -, rfl⟩ := List.mem_map.mp hr
    have hresolved := written.resolved_resolve o.written.tables
    simp only [List.mem_cons, List.not_mem_nil, or_false] at he
    rcases he with rfl | rfl
    · exact hresolved.source.table.isTableName_or.resolve_right (not_not_intro halias)
    · exact hresolved.target.table.isTableName_or.resolve_right (not_not_intro halias)
  · rw [inline_ofText text, ← Outline.map_snd_ownedRelationships, List.map_map, List.forall₂_map_right_iff,
      List.forall₂_same]
    intro owned howned
    obtain ⟨ht, f, hf, hsource⟩ := Outline.mem_ownedRelationships howned
    have hresolved := owned.2.resolved_resolve schema.tables
    have hkept := hresolved.source_eq ht ⟨f, hf, hsource⟩
    exact ⟨ht, hresolved, f, hf, hkept.trans hsource⟩

end SchemaDiagram
