import SchemaDiagram.Proofs.Check.Join

/-! # Texts in sequence

A text that leaves no brace, string or comment open may be followed by another one. Together they declare
what each of them declares, and the checks that look at one place at a time report what they report for
each.
-/
namespace SchemaDiagram

variable {t₁ t₂ : Text}

theorem Source.settled_ofText_append (hcode : ScanState.code.behind t₁.lines = .code)
    (hclosed : (ofText t₁).outline.unclosed = 0) (hfirst : startsWithBrace (scan t₂) = false) :
    (ofText (t₁ ++ '\n' :: t₂)).settled = ((ofText t₁).join (· + t₁.lines.length) (ofText t₂)).settled := by
  have hscan : ofText (t₁ ++ '\n' :: t₂) =
      ofLines (scan t₁ ++ scanLines .code (1 + t₁.lines.length) t₂.lines) :=
    congrArg ofLines (scan_eq_append (Text.lines_append_feed t₁ t₂) hcode)
  rw [hscan]
  exact settled_ofLines_append hclosed _ hfirst

/-- The second text declares what it declares alone, and the checks report its problems further down. -/
theorem Source.ofText_append (hcode : ScanState.code.behind t₁.lines = .code)
    (hclosed : (ofText t₁).outline.unclosed = 0) (hfirst : startsWithBrace (scan t₂) = false) :
    (ofText (t₁ ++ '\n' :: t₂)).outline.written = (ofText t₁).outline.writtenThen (ofText t₂).outline ∧
    Schema.ofText (t₁ ++ '\n' :: t₂) = ((ofText t₁).outline.writtenThen (ofText t₂).outline).resolveAliases ∧
    ∀ check ∈ localChecks, check (ofText (t₁ ++ '\n' :: t₂)) =
      check (ofText t₁) ++ (check (ofText t₂)).map (Diagnostic.renumber (· + t₁.lines.length)) := by
  have hsettled := settled_ofText_append hcode hclosed hfirst
  have hc := Outline.consistent_ofText t₁
  have hwritten : (ofText (t₁ ++ '\n' :: t₂)).outline.written =
      (ofText t₁).outline.writtenThen (ofText t₂).outline := by
    rw [written_eq_of_settled hsettled]
    exact Outline.written_join hc (Outline.consistent_join hc _ 1 t₂.lines)
  refine ⟨hwritten, congrArg Schema.resolveAliases hwritten, fun check h => ?_⟩
  have hpositive : ∀ n, 1 ≤ n → 1 ≤ n + t₁.lines.length := fun n hn => Nat.le_add_right_of_le hn
  rw [check_eq_of_settled (mem_checks.mpr (.inl h)) hsettled]
  exact check_join h hpositive hc hclosed (scan t₂)

/-- A table with a broken line, a brace too many and a string without its end. -/
def brokenTable : Text := "Table a \x7b\n id int [ref: > b.id]\n name\n\x7d\n\x7d\nRef: a.b\nTabel 'x \x7b".toList

/-- A brace too many, a table and a block that is not closed. -/
def brokenTail : Text := " // more\n\x7d\nTable b \x7b\n id int [pkk]\n\x7d\nRef: b.id > a.id\nEnum e \x7b\n one".toList

theorem Source.ofText_append_broken :
    (ofText (brokenTable ++ '\n' :: brokenTail)).outline.written =
      (ofText brokenTable).outline.writtenThen (ofText brokenTail).outline ∧
    checkBraces (ofText (brokenTable ++ '\n' :: brokenTail)) =
      checkBraces (ofText brokenTable) ++ (checkBraces (ofText brokenTail)).map (Diagnostic.renumber (· + 7)) := by
  have hcode : ScanState.code.behind brokenTable.lines = .code := by decide +kernel
  have hclosed : (ofText brokenTable).outline.unclosed = 0 := by decide +kernel
  have hfirst : startsWithBrace (scan brokenTail) = false := by decide +kernel
  obtain ⟨hwritten, -, hcheck⟩ := ofText_append hcode hclosed hfirst
  have hlength : brokenTable.lines.length = 7 := by decide +kernel
  refine ⟨hwritten, ?_⟩
  rw [← hlength]
  exact hcheck checkBraces (by simp [localChecks])

end SchemaDiagram
