import SchemaDiagram.Check.Validation
import SchemaDiagram.Proofs.Schema.Join

/-! # Checks of joined outlines

Most checks look at one brace, one statement or one header at a time: they report for lines behind others
what they report for these lines alone, under other numbers. The checks of duplicate names and of types look
names up in the whole text; they report the same for the same lines under other numbers.
-/
namespace SchemaDiagram

variable {g : Nat → Nat}

theorem filterMap_append_map {α β : Type} {f : α → Option β} {m : α → α} {r : β → β}
    (h : ∀ a, f (m a) = (f a).map r) (as bs : List α) :
    (as ++ bs.map m).filterMap f = as.filterMap f ++ (bs.filterMap f).map r := by
  rw [List.filterMap_append, List.filterMap_map, List.map_filterMap]
  exact congrArg _ (List.filterMap_congr fun a _ => h a)

theorem filter_append_map {α : Type} {p : α → Bool} {m : α → α} (h : ∀ a, p (m a) = p a) (as bs : List α) :
    (as ++ bs.map m).filter p = as.filter p ++ (bs.filter p).map m := by
  rw [List.filter_append, List.filter_map]
  exact congrArg _ (congrArg _ (List.filter_congr fun a _ => h a))

/-! ## Marks -/

def Diagnostic.renumber (g : Nat → Nat) (d : Diagnostic) : Diagnostic := { d with line := g d.line }

namespace Problem

theorem renumber_mark (hg : ∀ n, 1 ≤ n → 1 ≤ g n) (p : Problem) (line column endColumn : Nat) :
    p.mark (g (max 1 line)) column endColumn = (p.mark line column endColumn).renumber g := by
  have hline : 1 ≤ g (max 1 line) := hg _ (Nat.le_max_left 1 line)
  simp only [mark, Diagnostic.mark, Diagnostic.renumber, Nat.max_eq_right hline]

theorem markIn_moved (hg : ∀ n, 1 ≤ n → 1 ≤ g n) (p : Problem) (offset : Nat) (s : Statement)
    (start stop : Nat) :
    p.markIn (s.moved g offset) start stop = (p.markIn s start stop).renumber g :=
  renumber_mark hg p _ _ _

theorem markAll_moved (hg : ∀ n, 1 ≤ n → 1 ≤ g n) (p : Problem) (offset : Nat) (s : Statement) :
    p.markAll (s.moved g offset) = (p.markAll s).renumber g :=
  markIn_moved hg p offset s _ _

end Problem

/-! ## Braces -/

/-- There is something on the lines besides blanks and comments. -/
def HasCode (lines : List Line) : Prop := ∃ l ∈ lines, l.code.trim.isEmpty = false

theorem Outline.exists_opensBlock {steps : List Step} (h : (after steps).depth ≠ 0) :
    ∃ s ∈ steps, s.opensBlock = true := by
  have hopen : (after steps).ledger.closed.countP (! ·) = (after steps).depth := (balanced_after steps).countP_closed
  have hle := List.countP_le_length (p := (! ·)) (l := (after steps).ledger.closed)
  have hlength : (after steps).ledger.closed.length = (after steps).blocks.length := List.length_map _
  rw [← List.countP_pos_iff, ← length_blocks_after]
  omega

theorem hasCode_of_depth {lines : List Line} (h : (Outline.ofLines lines).depth ≠ 0) : HasCode lines := by
  rw [Outline.ofLines_eq_after] at h
  obtain ⟨s, hs, hopens⟩ := Outline.exists_opensBlock h
  cases s with
  | newLine => cases hopens
  | event l e =>
      cases e with
      | text | closeBrace => cases hopens
      | openBrace start =>
          obtain ⟨hl, he⟩ := Step.mem_flatMap_steps.mp hs
          have hbrace : '\x7b' ∈ l.code := by
            rw [← l.flatMap_content_events, List.mem_flatMap]
            exact ⟨_, he, List.mem_singleton_self _⟩
          refine ⟨l, hl, ?_⟩
          rw [List.isEmpty_eq_false_iff]
          intro hnil
          exact absurd (Text.isBlanks_of_trim_eq_nil hnil _ hbrace) (by decide)

namespace Source

variable {s r : Source}

theorem lastCodeLine?_join (s : Source) (g : Nat → Nat) (h : HasCode r.lines) :
    (s.join g r).lastCodeLine? = r.lastCodeLine?.map (Line.renumber g) := by
  have hfind : ((r.lines.map (Line.renumber g)).reverse.find? fun l => !l.code.trim.isEmpty) =
      (r.lines.reverse.find? fun l => !l.code.trim.isEmpty).map (Line.renumber g) := by
    rw [← List.map_reverse, List.find?_map]
    rfl
  obtain ⟨last, hlast⟩ : ∃ last, (r.lines.reverse.find? fun l => !l.code.trim.isEmpty) = some last := by
    obtain ⟨l, hl, hcode⟩ := h
    rw [← Option.isSome_iff_exists, List.find?_isSome]
    exact ⟨l, List.mem_reverse.mpr hl, by rw [hcode]; rfl⟩
  rw [lastCodeLine?, lastCodeLine?, join, List.reverse_append, List.find?_append, hfind, hlast]
  rfl

theorem checkBraces_join (hg : ∀ n, 1 ≤ n → 1 ≤ g n) (hs : s.outline.unclosed = 0)
    (hr : r.outline.unclosed ≠ 0 → HasCode r.lines) :
    checkBraces (s.join g r) = checkBraces s ++ (checkBraces r).map (Diagnostic.renumber g) := by
  have hstrays : (s.join g r).outline.strayCloses =
      s.outline.strayCloses ++ r.outline.strayCloses.map (StrayClose.renumber g) := rfl
  have hunclosed : (s.join g r).outline.unclosed = r.outline.unclosed := rfl
  simp only [checkBraces, hs, hstrays, hunclosed, List.append_nil, List.map_append, List.map_map, List.append_assoc]
  congr 2
  · exact List.map_congr_left fun c _ => Problem.renumber_mark hg _ _ _ _
  · cases hdepth : r.outline.unclosed with
    | zero => rfl
    | succ n =>
        rw [lastCodeLine?_join s g (hr (by rw [hdepth]; exact Nat.succ_ne_zero n))]
        cases r.lastCodeLine? with
        | none => rfl
        | some l => exact congrArg (· :: []) (Problem.renumber_mark hg _ _ _ _)

end Source

/-! ## Headers and statements -/

section

variable {o : Outline}

/-- The headers of the blocks of a kind. -/
def Outline.headersOf (o : Outline) (kind : BlockKind) : List Statement :=
  (o.blocks.filter (·.kind = kind)).filterMap o.header?

theorem headersOf_join (h : o.Consistent) (g : Nat → Nat) (p : Outline) (kind : BlockKind) :
    (o.join g p).headersOf kind =
      o.headersOf kind ++ (p.headersOf kind).map (Statement.moved g o.blocks.length) := by
  have hblocks : (o.join g p).blocks.filter (·.kind = kind) =
      o.blocks.filter (·.kind = kind) ++
        (p.blocks.filter (·.kind = kind)).map (Block.moved g o.statements.length) := by
    apply filter_append_map
    exact fun _ => rfl
  rw [Outline.headersOf, hblocks, List.filterMap_append, Outline.headersOf, Outline.headersOf, List.filterMap_map,
    List.map_filterMap]
  congr 1
  · refine List.filterMap_congr fun b hb => ?_
    exact (Outline.extends_join o g p).header?_eq h (List.mem_filter.mp hb).1
  · exact List.filterMap_congr fun b _ => Outline.header?_moved o p g b

theorem tableHeaders_eq (o : Outline) :
    tableHeaders o = (o.headersOf .table).filterMap fun s => (TableHeader.read? s.text).map (s, ·) := by
  rw [tableHeaders, Outline.headersOf, List.filterMap_filterMap]
  refine List.filterMap_congr fun b _ => ?_
  cases o.header? b with
  | none => rfl
  | some s => cases ht : TableHeader.read? s.text <;> simp [ht]

theorem enumNames_eq (o : Outline) :
    enumNames o =
      (o.headersOf .enum).filterMap fun s => (enumHeader? s.text).map fun name => Text.lower name.value := by
  rw [enumNames, Outline.headersOf, List.filterMap_filterMap]
  refine List.filterMap_congr fun b _ => ?_
  cases o.header? b with
  | none => rfl
  | some s => cases ht : enumHeader? s.text <;> simp [ht]

theorem tableHeaders_join (h : o.Consistent) (g : Nat → Nat) (p : Outline) :
    tableHeaders (o.join g p) = tableHeaders o ++
      (tableHeaders p).map fun (statement, header) => (statement.moved g o.blocks.length, header) := by
  rw [tableHeaders_eq, headersOf_join h, tableHeaders_eq, tableHeaders_eq]
  refine filterMap_append_map (fun s => ?_) _ _
  rw [Option.map_map]
  rfl

theorem declarations_join (h : o.Consistent) (g : Nat → Nat) (p : Outline) :
    declarations (o.join g p) = declarations o ++
      (declarations p).map fun (statement, name) => (statement.moved g o.blocks.length, name) := by
  rw [declarations, tableHeaders_join h]
  refine filterMap_append_map (fun (statement, header) => ?_) _ _
  rw [Option.map_map]
  rfl

theorem enumNames_join (h : o.Consistent) (g : Nat → Nat) (p : Outline) :
    enumNames (o.join g p) = enumNames o ++ enumNames p := by
  rw [enumNames_eq, headersOf_join h, List.filterMap_append, List.filterMap_map, enumNames_eq, enumNames_eq]
  rfl

theorem tableStatements_join (o : Outline) (g : Nat → Nat) (p : Outline) :
    tableStatements (o.join g p) = tableStatements o ++
      (tableStatements p).map (Statement.moved g o.blocks.length) := by
  refine filter_append_map (fun s => ?_) _ _
  have hcontext : (s.context.shift o.blocks.length).isTable = s.context.isTable := by cases s.context <;> rfl
  simp only [Statement.moved, hcontext, Option.isNone_map]

end

/-! ## Checks of one place -/

namespace Source

variable {s r : Source}

theorem checkTableNames_join (hg : ∀ n, 1 ≤ n → 1 ≤ g n) (hs : s.outline.Consistent) (r : Source) :
    checkTableNames (s.join g r) = checkTableNames s ++ (checkTableNames r).map (Diagnostic.renumber g) := by
  rw [checkTableNames, join, tableHeaders_join hs]
  refine filterMap_append_map (fun entry => ?_) _ _
  obtain ⟨statement, header⟩ := entry
  simp only [Problem.markIn_moved hg]
  split <;> rfl

theorem checkFieldSyntax_join (hg : ∀ n, 1 ≤ n → 1 ≤ g n) (s r : Source) :
    checkFieldSyntax (s.join g r) = checkFieldSyntax s ++ (checkFieldSyntax r).map (Diagnostic.renumber g) := by
  rw [checkFieldSyntax, join, tableStatements_join]
  refine filterMap_append_map (fun statement => ?_) _ _
  have htext : (statement.moved g s.outline.blocks.length).text = statement.text := rfl
  simp only [Problem.markAll_moved hg, htext]
  split <;> rfl

theorem checkReferences_join (hg : ∀ n, 1 ≤ n → 1 ≤ g n) (s r : Source) :
    checkReferences (s.join g r) = checkReferences s ++ (checkReferences r).map (Diagnostic.renumber g) := by
  refine filterMap_append_map (fun statement => ?_) _ _
  have hproblem : referenceProblem? (statement.moved g s.outline.blocks.length) = referenceProblem? statement := by
    simp only [referenceProblem?, Statement.moved, Option.isNone_map]
    cases statement.context <;> rfl
  rw [hproblem]
  cases referenceProblem? statement with
  | none => rfl
  | some p => exact congrArg some (p.markAll_moved hg _ _)

theorem checkKeywords_join (hg : ∀ n, 1 ≤ n → 1 ≤ g n) (s r : Source) :
    checkKeywords (s.join g r) = checkKeywords s ++ (checkKeywords r).map (Diagnostic.renumber g) := by
  have hmay : ∀ statement : Statement,
      mayStartWithKeyword (statement.moved g s.outline.blocks.length) = mayStartWithKeyword statement := by
    intro statement
    simp only [mayStartWithKeyword, Statement.moved, Option.isSome_map]
    cases statement.context <;> rfl
  have hstatements : (s.join g r).outline.statements.filter mayStartWithKeyword =
      s.outline.statements.filter mayStartWithKeyword ++
        (r.outline.statements.filter mayStartWithKeyword).map (Statement.moved g s.outline.blocks.length) :=
    filter_append_map hmay _ _
  rw [checkKeywords, hstatements]
  refine filterMap_append_map (fun statement => ?_) _ _
  have htext : (statement.moved g s.outline.blocks.length).text = statement.text := rfl
  simp only [Problem.markIn_moved hg, htext]
  split
  · rw [Option.map_map]
    rfl
  · rfl

theorem checkSettings_join (hg : ∀ n, 1 ≤ n → 1 ≤ g n) (s r : Source) :
    checkSettings (s.join g r) = checkSettings s ++ (checkSettings r).map (Diagnostic.renumber g) := by
  rw [checkSettings, join, tableStatements_join, List.flatMap_append, List.flatMap_map, checkSettings, checkSettings,
    List.map_flatMap]
  refine congrArg _ (List.flatMap_congr fun statement _ => ?_)
  have htext : (statement.moved g s.outline.blocks.length).text = statement.text := rfl
  simp only [Problem.markIn_moved hg, htext]
  split
  · split
    · rfl
    · rw [List.map_filterMap]
      refine List.filterMap_congr fun setting _ => ?_
      rw [Option.map_map]
      rfl
  · rfl

end Source

/-- The checks that look at one place of the text at a time. -/
def localChecks : List (Source → List Diagnostic) :=
  [checkBraces, checkTableNames, checkFieldSyntax, checkReferences, checkKeywords, checkSettings]

theorem mem_checks {check : Source → List Diagnostic} :
    check ∈ checks ↔ check ∈ localChecks ∨ check = checkDuplicates ∨ check = checkTypes := by
  simp only [checks, localChecks, List.mem_cons, List.not_mem_nil, or_false]
  grind

namespace Source

theorem check_join {check : Source → List Diagnostic} (h : check ∈ localChecks) (hg : ∀ n, 1 ≤ n → 1 ≤ g n)
    {s : Source} (hs : s.outline.Consistent) (hclosed : s.outline.unclosed = 0) (lines : List Line) :
    check (s.join g (ofLines lines)) = check s ++ (check (ofLines lines)).map (Diagnostic.renumber g) := by
  simp only [localChecks, List.mem_cons, List.not_mem_nil, or_false] at h
  rcases h with rfl | rfl | rfl | rfl | rfl | rfl
  · exact checkBraces_join hg hclosed hasCode_of_depth
  · exact checkTableNames_join hg hs _
  · exact checkFieldSyntax_join hg _ _
  · exact checkReferences_join hg _ _
  · exact checkKeywords_join hg _ _
  · exact checkSettings_join hg _ _

/-- No check looks at what only the next step of the pass asks for. -/
theorem check_eq_of_settled {check : Source → List Diagnostic} (h : check ∈ checks) {s r : Source}
    (hsettled : s.settled = r.settled) : check s = check r := by
  have hcheck : ∀ s : Source, check s.settled = check s := by
    intro s
    simp only [checks, List.mem_cons, List.not_mem_nil, or_false] at h
    rcases h with rfl | rfl | rfl | rfl | rfl | rfl | rfl | rfl <;> rfl
  rw [← hcheck s, hsettled, hcheck r]

theorem diagnostics_eq_of_settled {s r : Source} (h : s.settled = r.settled) : s.diagnostics = r.diagnostics :=
  List.flatMap_congr fun _ hmem => check_eq_of_settled hmem h

end Source

/-! ## Checks of the whole text -/

namespace Source

theorem checkTypes_renumber (hg : ∀ n, 1 ≤ n → 1 ≤ g n) (s : Source) :
    checkTypes ((ofLines []).join g s) = (checkTypes s).map (Diagnostic.renumber g) := by
  have henums : enumNames ((ofLines []).join g s).outline = enumNames s.outline :=
    enumNames_join Outline.consistent_empty g s.outline
  have hstatements : tableStatements ((ofLines []).join g s).outline =
      [] ++ (tableStatements s.outline).map (Statement.moved g 0) :=
    tableStatements_join Outline.empty g s.outline
  simp only [checkTypes, henums, hstatements]
  refine filterMap_append_map (fun statement => ?_) [] _
  have htext : (statement.moved g 0).text = statement.text := rfl
  simp only [Problem.markIn_moved hg, htext]
  cases FieldHead.read? statement.text with
  | none => rfl
  | some field =>
      simp only [Option.bind_some]
      split <;> rfl

theorem checkDuplicates_renumber (hg : ∀ n, 1 ≤ n → 1 ≤ g n) (s : Source) :
    checkDuplicates ((ofLines []).join g s) = (checkDuplicates s).map (Diagnostic.renumber g) := by
  have hdeclarations : declarations ((ofLines []).join g s).outline =
      (declarations s.outline).map fun (statement, name) => (statement.moved g 0, name) :=
    declarations_join Outline.consistent_empty g s.outline
  have hnames : declaredNames ((ofLines []).join g s).outline = declaredNames s.outline := by
    rw [declaredNames, hdeclarations, List.map_map]
    rfl
  have hof : ∀ name, declarationsOf ((ofLines []).join g s).outline name =
      (declarationsOf s.outline name).map fun (statement, name) => (statement.moved g 0, name) := by
    intro name
    rw [declarationsOf, hdeclarations, List.filter_map]
    rfl
  rw [checkDuplicates, hnames, checkDuplicates, List.map_flatMap]
  refine List.flatMap_congr fun name _ => ?_
  rw [hof]
  match declarationsOf s.outline name with
  | [] | [_] => rfl
  | first :: second :: more =>
      simp only [List.map_cons, List.length_cons, List.length_map, List.map_map, Function.comp_def,
        Problem.markIn_moved hg]

/-- The diagnostics of the same lines under other numbers. -/
theorem diagnostics_renumber (hg : ∀ n, 1 ≤ n → 1 ≤ g n) (lines : List Line) :
    ((ofLines []).join g (ofLines lines)).diagnostics = (ofLines lines).diagnostics.map (Diagnostic.renumber g) := by
  rw [diagnostics, diagnostics, List.map_flatMap]
  refine List.flatMap_congr fun check h => ?_
  rcases mem_checks.mp h with h | rfl | rfl
  · have hnil : check (ofLines []) = [] := by
      simp only [localChecks, List.mem_cons, List.not_mem_nil, or_false] at h
      rcases h with rfl | rfl | rfl | rfl | rfl | rfl <;> rfl
    rw [check_join h hg Outline.consistent_empty rfl, hnil, List.nil_append]
  · exact checkDuplicates_renumber hg _
  · exact checkTypes_renumber hg _

end Source
end SchemaDiagram
