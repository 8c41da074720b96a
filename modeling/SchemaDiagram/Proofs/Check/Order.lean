import SchemaDiagram.Proofs.Check.Finding
import SchemaDiagram.Proofs.Source.Order

/-! # Order of diagnostics

A check goes through statements, or through blocks and their headers, and both are listed in the order of the text.
What it finds in a statement is marked on the first line of that statement, so it never comes to stand in front of
what was found in an earlier one. Only the check of duplicates goes by names instead of places.
-/
namespace SchemaDiagram

def Statement.StartsBefore (s s' : Statement) : Prop := s.line < s'.line ∨ s.line = s'.line ∧ s.column < s'.column

def Diagnostic.StartsNoLater (d d' : Diagnostic) : Prop := d.line < d'.line ∨ d.line = d'.line ∧ d.column ≤ d'.column

variable {text : Text}

theorem Statement.Precedes.startsBefore {s s' : Statement} (hs : s ∈ (Source.ofText text).outline.statements)
    (h : s.Precedes s') : s.StartsBefore s' := by
  obtain ⟨l, -, hplace⟩ := exists_on hs
  refine h.imp id fun ⟨hline, hcolumn⟩ => ⟨hline, ?_⟩
  exact Nat.lt_of_lt_of_le (column_lt_endColumn hplace) hcolumn

/-! ## Findings -/

namespace Finding

/-- Both findings are in one statement, in their order, or the statement of the first one is in front of the other. -/
def Precedes (f f' : Finding) : Prop :=
  f.statement.Precedes f'.statement ∨ f.statement = f'.statement ∧ f.start ≤ f'.start

theorem Precedes.startsNoLater {f f' : Finding} (hf : f.In text) (h : f.Precedes f') :
    f.diagnostic.StartsNoLater f'.diagnostic := by
  obtain ⟨l, hl, hplace⟩ := Statement.exists_on hf.statement_mem
  have hnumber := (exists_raw_of_mem_scan hl).1
  have hline : f.statement.line = l.number := hplace.line_eq
  have hend := Statement.columnAt_le hplace f.start
  simp only [Diagnostic.StartsNoLater, diagnostic, Problem.markIn, Problem.mark, Diagnostic.mark]
  rcases h with (hlt | ⟨heq, hle⟩) | ⟨hsame, hle⟩
  · have hlt : f.statement.line < f'.statement.line := hlt
    omega
  · have heq : f.statement.line = f'.statement.line := heq
    have hle : f.statement.endColumn ≤ f'.statement.column := hle
    have hstart : f'.statement.column ≤ f'.statement.columnAt f'.start := Nat.le_add_right _ _
    omega
  · have hcolumn : f.statement.columnAt f.start ≤ f'.statement.columnAt f'.start := by
      rw [← hsame]
      exact Nat.add_le_add_left (Text.length_takeBytes_mono _ hle) _
    rw [hsame] at hcolumn ⊢
    omega

/-- What is found statement by statement, in the order of the text. -/
theorem pairwise_flatMap {α : Type} {sites : List α} {g : α → Statement} {find : α → List Finding}
    (hsites : sites.Pairwise fun a b => (g a).Precedes (g b))
    (hstatement : ∀ a, ∀ f ∈ find a, f.statement = g a) (hfind : ∀ a, (find a).Pairwise Precedes) :
    (sites.flatMap find).Pairwise Precedes := by
  refine List.pairwise_flatMap.mpr ⟨fun a _ => hfind a, hsites.imp fun {a b} h f hf f' hf' => .inl ?_⟩
  rw [hstatement a f hf, hstatement b f' hf']
  exact h

theorem pairwise_filterMap {α : Type} {sites : List α} {g : α → Statement} {find : α → Option Finding}
    (hsites : sites.Pairwise fun a b => (g a).Precedes (g b))
    (hstatement : ∀ a, ∀ f ∈ find a, f.statement = g a) : (sites.filterMap find).Pairwise Precedes := by
  refine hsites.filterMap find fun a b h f hf f' hf' => .inl ?_
  rw [hstatement a f hf, hstatement b f' hf']
  exact h

/-! ## What the checks find -/

theorem pairwise_tableHeaders (text : Text) :
    (tableHeaders (Source.ofText text).outline).Pairwise fun site site' => site.1.Precedes site'.1 := by
  refine ((Outline.pairwise_headers text).filter _).filterMap _ fun b b' h site hsite site' hsite' => ?_
  obtain ⟨s, hs, hsite⟩ := Option.bind_eq_some_iff.mp hsite
  obtain ⟨header, -, hsite⟩ := Option.bind_eq_some_iff.mp hsite
  obtain ⟨s', hs', hsite'⟩ := Option.bind_eq_some_iff.mp hsite'
  obtain ⟨header', -, hsite'⟩ := Option.bind_eq_some_iff.mp hsite'
  cases hsite
  cases hsite'
  exact h s s' hs hs'

theorem pairwise_tableNames (text : Text) : (tableNames (Source.ofText text).outline).Pairwise Precedes := by
  refine pairwise_filterMap (pairwise_tableHeaders text) fun site f hf => ?_
  obtain ⟨-, hf⟩ := Option.ite_none_right_eq_some.mp hf
  obtain rfl := Option.some.inj hf
  rfl

theorem pairwise_tableStatements (text : Text) :
    (tableStatements (Source.ofText text).outline).Pairwise Statement.Precedes :=
  (Outline.pairwise_statements text).filter _

theorem pairwise_fieldSyntax (text : Text) : (fieldSyntax (Source.ofText text).outline).Pairwise Precedes := by
  refine pairwise_filterMap (g := id) (pairwise_tableStatements text) fun s f hf => ?_
  obtain ⟨-, hf⟩ := Option.ite_none_left_eq_some.mp hf
  obtain rfl := Option.some.inj hf
  rfl

theorem pairwise_references (text : Text) : (references (Source.ofText text).outline).Pairwise Precedes := by
  refine pairwise_filterMap (g := id) (Outline.pairwise_statements text) fun s f hf => ?_
  obtain ⟨p, -, rfl⟩ := Option.map_eq_some_iff.mp hf
  rfl

theorem pairwise_keywords (text : Text) : (keywords (Source.ofText text).outline).Pairwise Precedes := by
  refine pairwise_filterMap (g := id) ((Outline.pairwise_statements text).filter _) fun s f hf => ?_
  split at hf
  · obtain ⟨fix, -, rfl⟩ := Option.map_eq_some_iff.mp hf
    rfl
  · cases hf

theorem pairwise_types (text : Text) : (types (Source.ofText text).outline).Pairwise Precedes := by
  refine pairwise_filterMap (g := id) (pairwise_tableStatements text) fun s f hf => ?_
  obtain ⟨field, -, hf⟩ := Option.bind_eq_some_iff.mp hf
  obtain ⟨-, hf⟩ := Option.ite_none_left_eq_some.mp hf
  obtain rfl := Option.some.inj hf
  rfl

theorem pairwise_settings (text : Text) : (settings (Source.ofText text).outline).Pairwise Precedes := by
  refine pairwise_flatMap (g := id) (pairwise_tableStatements text) (fun s f hf => ?_) fun s => ?_
  · split at hf
    · split at hf
      · cases hf
      · obtain ⟨setting, -, hf⟩ := List.mem_filterMap.mp hf
        obtain ⟨p, -, rfl⟩ := Option.map_eq_some_iff.mp hf
        rfl
    · cases hf
  · split
    · next field hread =>
        split
        · exact .nil
        · have hspan := (Access.spans_of_field hread).2
          have hstarts : field.settings.Pairwise fun setting setting' => setting.start ≤ setting'.start :=
            (Access.pairwise_settings_of_field hread).imp_of_mem fun hmem _ hle =>
              Nat.le_trans (Nat.le_of_lt (hspan _ hmem).lt) hle
          refine hstarts.filterMap _ fun setting setting' hle f hf f' hf' => .inr ?_
          obtain ⟨p, -, rfl⟩ := Option.map_eq_some_iff.mp hf
          obtain ⟨p', -, rfl⟩ := Option.map_eq_some_iff.mp hf'
          exact ⟨rfl, hle⟩
    · exact .nil

/-! ## What the checks report -/

/-- A check of statements reports in the order in which it finds. -/
theorem pairwise_startsNoLater {check : Source → List Diagnostic} {find : Outline → List Finding}
    (hcheck : (check, find) ∈ statementChecks) (hfind : (find (Source.ofText text).outline).Pairwise Precedes) :
    (check (Source.ofText text)).Pairwise Diagnostic.StartsNoLater := by
  have hreport : (find (Source.ofText text).outline).map diagnostic = check (Source.ofText text) :=
    diagnostic_statementChecks _ _ hcheck
  have hin := in_of_mem_statementChecks text _ hcheck
  rw [← hreport, List.pairwise_map]
  exact hfind.imp_of_mem fun hf _ h => h.startsNoLater (hin _ hf)

end Finding

/-- Statements are listed in the order in which they start in the text, and each of these checks reports its
diagnostics in the order in which they start. -/
theorem reported_in_order (text : Text) :
    (Source.ofText text).outline.statements.Pairwise Statement.StartsBefore ∧
    ∀ check ∈ [checkTableNames, checkFieldSyntax, checkReferences, checkKeywords, checkTypes, checkSettings],
      (check (Source.ofText text)).Pairwise Diagnostic.StartsNoLater := by
  constructor
  · exact (Outline.pairwise_statements text).imp_of_mem fun hs _ h => h.startsBefore hs
  · simp only [List.forall_mem_cons]
    refine ⟨?_, ?_, ?_, ?_, ?_, ?_, nofun⟩
    · exact Finding.pairwise_startsNoLater (by simp [statementChecks]) (Finding.pairwise_tableNames text)
    · exact Finding.pairwise_startsNoLater (by simp [statementChecks]) (Finding.pairwise_fieldSyntax text)
    · exact Finding.pairwise_startsNoLater (by simp [statementChecks]) (Finding.pairwise_references text)
    · exact Finding.pairwise_startsNoLater (by simp [statementChecks]) (Finding.pairwise_keywords text)
    · exact Finding.pairwise_startsNoLater (by simp [statementChecks]) (Finding.pairwise_types text)
    · exact Finding.pairwise_startsNoLater (by simp [statementChecks]) (Finding.pairwise_settings text)

/-- Settings behind a note of two lines are marked at one column. -/
example : (checkSettings (Source.ofText "Table A \x7b\n  id int [uniq, note: '''a\nb''', nul, pkey]\n\x7d".toList)).map
    (fun d => (d.line, d.column)) = [(2, 11), (2, 27), (2, 27)] := by decide +kernel

end SchemaDiagram
