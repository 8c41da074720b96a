import SchemaDiagram.Proofs.Layout.Arrange
import SchemaDiagram.Proofs.Schema.Lossless
import SchemaDiagram.Proofs.Source.Order

/-! # Duplicate tables

The check of duplicates looks for names in the headers of blocks, the extraction makes tables of the blocks. Both
find the same tables, so the numbers that the check reports are the numbers of tables in the schema.
-/
namespace SchemaDiagram

/-! ## Declarations -/

/-- Tables are declared in the order of the text. -/
theorem pairwise_declarations (text : Text) :
    (declarations (Source.ofText text).outline).Pairwise fun site site' => site.1.Precedes site'.1 := by
  have hheader : ∀ {b site}, (Source.ofText text).outline.declaration? b = some site →
      (Source.ofText text).outline.header? b = some site.1 := by
    intro b site h
    obtain ⟨s, hs, h⟩ := Option.bind_eq_some_iff.mp h
    obtain ⟨header, -, h⟩ := Option.bind_eq_some_iff.mp h
    obtain ⟨name, -, h⟩ := Option.bind_eq_some_iff.mp h
    obtain rfl := Option.some.inj h
    exact hs
  rw [declarations_eq]
  refine ((Outline.pairwise_headers text).filter _).filterMap _ fun b b' h site hsite site' hsite' => ?_
  exact h _ _ (hheader hsite) (hheader hsite')

/-! ## Names -/

theorem names_firstDeclarations (tables : List Table) :
    (firstDeclarations tables).map Table.name = (tables.map Table.name).eraseDups := by
  induction tables using List.reverseRecOn with
  | nil => rfl
  | append_singleton tables t ih =>
      have hseen : t.name ∈ (firstDeclarations tables).map Table.name ↔ t.name ∈ tables.map Table.name :=
        mem_names_firstDeclarations
      have hnew : [t.name].removeAll (tables.map Table.name) =
          if t.name ∈ tables.map Table.name then [] else [t.name] := by
        rw [List.removeAll, List.filter_cons, List.filter_nil, List.elem_eq_mem]
        split <;> simp_all
      rw [List.map_append, List.eraseDups_append, ← ih, List.map_singleton, hnew, firstDeclarations_append_singleton]
      by_cases h : t.name ∈ tables.map Table.name
      · rw [if_pos h, if_pos (hseen.mpr h)]
        simp
      · rw [if_neg h, if_neg (mt hseen.mp h), List.map_append]
        rfl

/-- As many tables have a name as there are declarations of it. -/
theorem length_declarationsOf (text name : Text) :
    (declarationsOf (Source.ofText text).outline name).length =
      (Schema.ofText text).tables.countP (·.name = name) := by
  have hnames := congrArg (List.countP (decide <| · = name)) (Schema.names_ofText text)
  rw [List.countP_map, List.countP_map] at hnames
  rw [declarationsOf, ← List.countP_eq_length_filter]
  exact hnames.symm

/-! ## The check -/

/-- The errors about a name that `k` tables have: their number at the first of the places, and one error at each. -/
def duplicateErrors (name : Text) (k : Nat) (sites : List (Statement × Name)) : List Diagnostic :=
  if 2 ≤ k then
    (sites.take 1).map (fun (s, n) => (Problem.declaredTimes name k).markIn s n.start n.stop) ++
      sites.map fun (s, n) => (Problem.duplicateTable name).markIn s n.start n.stop
  else []

theorem duplicateErrors_length (name : Text) (sites : List (Statement × Name)) :
    duplicateErrors name sites.length sites = match sites with
      | first :: second :: more =>
        (Problem.declaredTimes name (first :: second :: more).length).markIn first.1 first.2.start first.2.stop ::
          (first :: second :: more).map fun (s, n) => (Problem.duplicateTable name).markIn s n.start n.stop
      | _ => [] := by
  match sites with
  | [] => rfl
  | [_] => rfl
  | first :: second :: more =>
      rw [duplicateErrors, if_pos (by simp)]
      rfl

/-- The check of duplicates reports a name that several tables of the schema have, and no other: their number at the
first declaration, and each declaration in the order of the text. Names follow in the order of their first tables. -/
theorem checkDuplicates_ofText (text : Text) :
    let o := (Source.ofText text).outline
    let tables := (Schema.ofText text).tables
    List.Forall₂ o.DeclaredAt tables (declarations o) ∧
    (declarations o).Pairwise (fun site site' => site.1.Precedes site'.1) ∧
    checkDuplicates (Source.ofText text) = (firstDeclarations tables).flatMap fun t =>
      duplicateErrors t.name (tables.countP (·.name = t.name)) ((declarations o).filter (·.2.value = t.name)) := by
  intro o tables
  have hnames : declaredNames o = (firstDeclarations tables).map Table.name := by
    rw [names_firstDeclarations, Schema.names_ofText]
    rfl
  refine ⟨o.forall₂_declaredAt, pairwise_declarations text, ?_⟩
  rw [checkDuplicates, hnames, List.flatMap_map]
  refine List.flatMap_congr fun t _ => ?_
  rw [← length_declarationsOf]
  exact (duplicateErrors_length t.name (declarationsOf o t.name)).symm

example : (checkDuplicates (Source.ofText "Table a \x7b\n\x7d\nTable b \x7b\n\x7d\nTable a \x7b\n\x7d".toList)).map
    (fun d => (d.line, d.column)) = [(1, 7), (1, 7), (5, 7)] := by decide +kernel

end SchemaDiagram
