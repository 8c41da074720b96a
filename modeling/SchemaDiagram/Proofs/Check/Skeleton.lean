import SchemaDiagram.Proofs.Check.Finding
import SchemaDiagram.Proofs.Check.Join
import SchemaDiagram.Proofs.Schema.MissingBrace

/-! # Checks without positions

What a check of statements finds lies in the words of the statements, in their contexts and in the headers of blocks:
positions are added by the report. The check of braces counts. So outlines that differ in nothing but positions are
reported alike.
-/
namespace SchemaDiagram

/-- What a diagnostic says, wherever it stands. -/
def Diagnostic.kind (d : Diagnostic) : Severity × String := (d.severity, d.message)

def Problem.kind (p : Problem) : Severity × String := (p.severity, p.message)

def Finding.skeleton (f : Finding) : Finding := { f with statement := f.statement.skeleton }

namespace Outline

variable (o : Outline)

theorem headersOf_skeleton (kind : BlockKind) :
    o.skeleton.headersOf kind = (o.headersOf kind).map Statement.skeleton := by
  have hblocks : o.skeleton.blocks.filter (·.kind = kind) =
      (o.blocks.filter (·.kind = kind)).map Block.skeleton := List.filter_map
  rw [headersOf, hblocks, List.filterMap_map, headersOf, List.map_filterMap]
  exact List.filterMap_congr fun b _ => header?_skeleton o b

theorem tableHeaders_skeleton :
    tableHeaders o.skeleton = (tableHeaders o).map fun (statement, header) => (statement.skeleton, header) := by
  rw [tableHeaders_eq, headersOf_skeleton, List.filterMap_map, tableHeaders_eq, List.map_filterMap]
  refine List.filterMap_congr fun s _ => ?_
  rw [Option.map_map]
  rfl

theorem declarations_skeleton :
    declarations o.skeleton = (declarations o).map fun (statement, name) => (statement.skeleton, name) := by
  rw [declarations, tableHeaders_skeleton, List.filterMap_map, declarations, List.map_filterMap]
  refine List.filterMap_congr fun entry _ => ?_
  rw [Option.map_map]
  rfl

theorem declarationsOf_skeleton (name : Text) : declarationsOf o.skeleton name =
    (declarationsOf o name).map fun (statement, n) => (statement.skeleton, n) := by
  rw [declarationsOf, declarations_skeleton, List.filter_map]
  rfl

theorem enumNames_skeleton : enumNames o.skeleton = enumNames o := by
  rw [enumNames_eq, headersOf_skeleton, List.filterMap_map, enumNames_eq]
  rfl

theorem tableStatements_skeleton : tableStatements o.skeleton = (tableStatements o).map Statement.skeleton :=
  List.filter_map

end Outline

namespace Finding

variable (o : Outline)

theorem ofSites_skeleton (name : Text) (sites : List (Statement × Name)) :
    ofSites name (sites.map fun (statement, n) => (statement.skeleton, n)) = (ofSites name sites).map skeleton := by
  match sites with
  | first :: second :: more => simp [ofSites, skeleton]
  | [] | [_] => rfl

theorem duplicates_skeleton : duplicates o.skeleton = (duplicates o).map skeleton := by
  have hnames : declaredNames o.skeleton = declaredNames o := by
    rw [declaredNames, o.declarations_skeleton, List.map_map]
    rfl
  rw [duplicates, hnames, duplicates, List.map_flatMap]
  refine List.flatMap_congr fun name _ => ?_
  rw [o.declarationsOf_skeleton, ofSites_skeleton]

theorem tableNames_skeleton : tableNames o.skeleton = (tableNames o).map skeleton := by
  rw [tableNames, o.tableHeaders_skeleton, List.filterMap_map, tableNames, List.map_filterMap]
  refine List.filterMap_congr fun entry _ => ?_
  dsimp only [Function.comp]
  split <;> rfl

theorem fieldSyntax_skeleton : fieldSyntax o.skeleton = (fieldSyntax o).map skeleton := by
  rw [fieldSyntax, o.tableStatements_skeleton, List.filterMap_map, fieldSyntax, List.map_filterMap]
  refine List.filterMap_congr fun statement _ => ?_
  rw [apply_ite (Option.map skeleton)]
  rfl

theorem references_skeleton : references o.skeleton = (references o).map skeleton := by
  rw [references, references, List.map_filterMap]
  refine List.filterMap_map.trans (List.filterMap_congr fun statement _ => ?_)
  rw [Option.map_map]
  rfl

theorem keywords_skeleton : keywords o.skeleton = (keywords o).map skeleton := by
  have hstatements : o.skeleton.statements.filter mayStartWithKeyword =
      (o.statements.filter mayStartWithKeyword).map Statement.skeleton := List.filter_map
  rw [keywords, hstatements, List.filterMap_map, keywords, List.map_filterMap]
  refine List.filterMap_congr fun statement _ => ?_
  dsimp only [Function.comp, Statement.skeleton]
  split
  · rw [Option.map_map]
    rfl
  · rfl

theorem types_skeleton : types o.skeleton = (types o).map skeleton := by
  rw [types, o.tableStatements_skeleton, List.filterMap_map, types, List.map_filterMap]
  refine List.filterMap_congr fun statement _ => ?_
  rw [Option.map_bind, o.enumNames_skeleton]
  refine congrArg (Option.bind _) (funext fun field => ?_)
  dsimp only [Function.comp]
  split <;> rfl

theorem settings_skeleton : settings o.skeleton = (settings o).map skeleton := by
  rw [settings, o.tableStatements_skeleton, List.flatMap_map, settings, List.map_flatMap]
  refine List.flatMap_congr fun statement _ => ?_
  dsimp only [Statement.skeleton]
  split
  · split
    · rfl
    · rw [List.map_filterMap]
      refine List.filterMap_congr fun setting _ => ?_
      rw [Option.map_map]
      rfl
  · rfl

/-- No check of statements looks at positions. -/
theorem statementChecks_skeleton : ∀ c ∈ statementChecks, c.2 o.skeleton = (c.2 o).map skeleton := by
  simp only [statementChecks, List.forall_mem_cons]
  exact ⟨duplicates_skeleton o, tableNames_skeleton o, fieldSyntax_skeleton o, references_skeleton o,
    keywords_skeleton o, types_skeleton o, settings_skeleton o, List.forall_mem_nil _⟩

end Finding

/-! ## Reports of outlines that differ in positions -/

namespace Source

variable {s r : Source}

theorem kinds_statementCheck (h : s.outline.skeleton = r.outline.skeleton)
    {c : (Source → List Diagnostic) × (Outline → List Finding)} (hc : c ∈ statementChecks) :
    (c.1 s).map Diagnostic.kind = (c.1 r).map Diagnostic.kind := by
  have hkinds : ∀ s : Source, (c.1 s).map Diagnostic.kind =
      (c.2 s.outline.skeleton).map (Diagnostic.kind ∘ Finding.diagnostic) := by
    intro s
    rw [← Finding.diagnostic_statementChecks s c hc, Finding.statementChecks_skeleton s.outline c hc, List.map_map,
      List.map_map]
    rfl
  rw [hkinds, hkinds, h]

/-- The check of braces reports how many close nothing, and how many are missing. -/
theorem kinds_checkBraces {l : Line} (hl : s.lastCodeLine? = some l) :
    (checkBraces s).map Diagnostic.kind =
      List.replicate s.outline.strayCloses.length Problem.strayBrace.kind ++
        if s.outline.depth = 0 then [] else [(Problem.missingBraces s.outline.depth).kind] := by
  rw [checkBraces_eq hl, List.map_append, List.map_map, ← List.map_const']
  refine congrArg _ ?_
  rw [apply_ite (List.map Diagnostic.kind)]
  rfl

theorem kinds_diagnostics (h : s.outline.Alike r.outline) {l l' : Line} (hl : s.lastCodeLine? = some l)
    (hl' : r.lastCodeLine? = some l') : s.diagnostics.map Diagnostic.kind = r.diagnostics.map Diagnostic.kind := by
  have hcheck : ∀ check ∈ checks, (check s).map Diagnostic.kind = (check r).map Diagnostic.kind := by
    have hstatements := fun c hc => kinds_statementCheck (c := c) h.skeleton_eq hc
    have hbraces : (checkBraces s).map Diagnostic.kind = (checkBraces r).map Diagnostic.kind := by
      rw [kinds_checkBraces hl, kinds_checkBraces hl', h.depth_eq, h.strayCloses_eq]
    simp only [statementChecks, List.forall_mem_cons] at hstatements
    obtain ⟨hduplicates, htableNames, hfieldSyntax, hreferences, hkeywords, htypes, hsettings, -⟩ := hstatements
    simp only [checks, List.forall_mem_cons]
    exact ⟨hduplicates, hbraces, htableNames, hfieldSyntax, hreferences, hkeywords, htypes, hsettings, List.forall_mem_nil _⟩
  rw [diagnostics, diagnostics, List.map_flatMap, List.map_flatMap]
  exact List.flatMap_congr hcheck

end Source

/-- Texts whose outlines differ in positions only declare the same schema, and the same is found wrong with them. -/
theorem Text.same_of_alike {t t' : Text} (h : (Outline.after t.steps).Alike (Outline.after t'.steps)) :
    Schema.ofText t = Schema.ofText t' ∧
      (validate t).diagnostics.map Diagnostic.kind = (validate t').diagnostics.map Diagnostic.kind := by
  rw [← Outline.outline_ofText, ← Outline.outline_ofText] at h
  obtain ⟨l, hl⟩ := Source.exists_lastCodeLine t
  obtain ⟨l', hl'⟩ := Source.exists_lastCodeLine t'
  refine ⟨?_, Source.kinds_diagnostics h hl hl'⟩
  rw [Schema.ofText, Schema.ofText, ← Outline.written_skeleton, h.skeleton_eq, Outline.written_skeleton]

end SchemaDiagram
