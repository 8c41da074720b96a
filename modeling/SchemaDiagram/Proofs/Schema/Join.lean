import SchemaDiagram.Proofs.Schema.Growth
import SchemaDiagram.Proofs.Source.Join

/-! # What joined outlines declare

An outline behind another declares what it declares alone, after all that the one in front declares.
-/
namespace SchemaDiagram
namespace Outline

variable {o p : Outline} {g : Nat → Nat}

/-! ## What is in front -/

theorem extends_join (o : Outline) (g : Nat → Nat) (p : Outline) :
    o.Extends (o.join g p) (p.statements.map (Statement.moved g o.blocks.length))
      (p.blocks.map (Block.moved g o.statements.length)) := by
  refine ⟨rfl, rfl, fun s hs i hi => ?_⟩
  obtain ⟨s', -, rfl⟩ := List.mem_map.mp hs
  rw [Statement.moved, Context.body?_shift] at hi
  obtain ⟨block, -, rfl⟩ := Option.map_eq_some_iff.mp hi
  exact Nat.le_add_right _ _

theorem consistent_join (h : o.Consistent) (g : Nat → Nat) (number : Nat) (raws : List Text) :
    (o.join g (ofLines (scanLines .code number raws))).Consistent := by
  have hempty : (o.join g empty).Consistent := by
    refine h.shrink ?_ ?_ (List.nil_subset _) rfl
    · exact List.append_nil _
    · exact List.append_nil _
  rw [← ofLines_join]
  exact hempty.addLines _

/-! ## What is behind -/

theorem header?_moved (o p : Outline) (g : Nat → Nat) (b : Block) :
    (o.join g p).header? (b.moved g o.statements.length) = (p.header? b).map (Statement.moved g o.blocks.length) := by
  rw [header?, header?, Block.moved]
  cases b.header with
  | none => rfl
  | some h => exact getElem?_append_map _ _ _ _

theorem body_moved (o p : Outline) (g : Nat → Nat) (b : Block) :
    (o.join g p).body (b.moved g o.statements.length) = (p.body b).map (Statement.moved g o.blocks.length) := by
  simp only [body, Block.moved, List.filterMap_map, List.map_filterMap]
  exact List.filterMap_congr fun i _ => getElem?_append_map _ _ _ _

theorem tableLines_moved (o p : Outline) (g : Nat → Nat) (b : Block) :
    (o.join g p).tableLines (b.moved g o.statements.length) = p.tableLines b := by
  have hopens : ∀ s : Statement, decide ((s.moved g o.blocks.length).opens = none) = decide (s.opens = none) := by
    intro s
    simp only [Statement.moved, Option.map_eq_none_iff]
  simp only [tableLines, body_moved, List.filter_map, List.map_map, Function.comp_def, hopens]
  rfl

theorem table?_moved (o p : Outline) (g : Nat → Nat) (b : Block) :
    (o.join g p).table? (b.moved g o.statements.length) = p.table? b := by
  simp only [table?, tableLines_moved, header?_moved]
  cases p.header? b <;> rfl

theorem enum?_moved (o p : Outline) (g : Nat → Nat) (b : Block) :
    (o.join g p).enum? (b.moved g o.statements.length) = p.enum? b := by
  simp only [enum?, body_moved, header?_moved, List.filterMap_map]
  cases p.header? b <;> rfl

theorem refBlockName_join (o p : Outline) (g : Nat → Nat) (block : Nat) :
    (o.join g p).refBlockName (o.blocks.length + block) = p.refBlockName block := by
  have hblock : (o.join g p).blocks[o.blocks.length + block]? =
      p.blocks[block]?.map (Block.moved g o.statements.length) :=
    getElem?_append_map _ _ _ _
  simp only [refBlockName, hblock]
  cases p.blocks[block]? with
  | none => rfl
  | some b =>
      simp only [Option.map_some, Option.bind_eq_bind, Option.bind_some, header?_moved]
      cases p.header? b <;> rfl

theorem relationship?_moved (o p : Outline) (g : Nat → Nat) (s : Statement) :
    (o.join g p).relationship? (s.moved g o.blocks.length) = p.relationship? s := by
  have hopens : (s.moved g o.blocks.length).opens = none ↔ s.opens = none := Option.map_eq_none_iff
  have hcontext : (s.moved g o.blocks.length).context = s.context.shift o.blocks.length := rfl
  simp only [relationship?, hopens, hcontext]
  cases s.context with
  | ref block => simp only [Context.shift, refBlockName_join, Statement.moved]
  | _ => rfl

/-! ## Both -/

theorem tables_join (h : o.Consistent) (hj : (o.join g p).Consistent) : (o.join g p).tables = o.tables ++ p.tables := by
  rw [(extends_join o g p).tables_eq h hj, List.filter_map, List.filterMap_map, tables.eq_def p]
  congr 1
  exact List.filterMap_congr fun b _ => table?_moved o p g b

theorem enums_join (h : o.Consistent) (hj : (o.join g p).Consistent) : (o.join g p).enums = o.enums ++ p.enums := by
  rw [(extends_join o g p).enums_eq h hj, List.filter_map, List.filterMap_map, enums.eq_def p]
  congr 1
  exact List.filterMap_congr fun b _ => enum?_moved o p g b

theorem standaloneRelationships_join (h : o.Consistent) (g : Nat → Nat) (p : Outline) :
    (o.join g p).standaloneRelationships = o.standaloneRelationships ++ p.standaloneRelationships := by
  rw [(extends_join o g p).standaloneRelationships_eq h, List.filterMap_map, standaloneRelationships.eq_def p]
  congr 1
  exact List.filterMap_congr fun s _ => relationship?_moved o p g s

/-- What two outlines declare one after the other. Relationships of fields stand in front of all others. -/
def writtenThen (o p : Outline) : Schema where
  tables := o.written.tables ++ p.written.tables
  relationships := o.tables.flatMap Prod.snd ++ p.tables.flatMap Prod.snd ++
    o.standaloneRelationships ++ p.standaloneRelationships
  enums := o.written.enums ++ p.written.enums

theorem empty_writtenThen (p : Outline) : empty.writtenThen p = p.written := by
  simp [writtenThen, written, tables, enums, standaloneRelationships, empty]

theorem written_join (h : o.Consistent) (hj : (o.join g p).Consistent) :
    (o.join g p).written = o.writtenThen p := by
  simp only [written, writtenThen, tables_join h hj, enums_join h hj, standaloneRelationships_join h, List.map_append,
    List.flatMap_append, List.append_assoc]

end Outline

theorem Source.written_eq_of_settled {s r : Source} (h : s.settled = r.settled) :
    s.outline.written = r.outline.written :=
  congrArg (fun s => s.outline.written) h

end SchemaDiagram
