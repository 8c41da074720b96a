import SchemaDiagram.Schema.Extract
import SchemaDiagram.Proofs.Source.Body

/-! # What blocks declare

A table has what its header and its lines say. When the pass over a text goes on, what it has found so
far keeps its meaning as long as the new statements stay out of the old blocks. The tables, enums and
relationships are those there were, and those of the new blocks and statements behind them.
-/
namespace SchemaDiagram

/-! ## Tables -/

theorem BlockKind.ofHeader_eq_table_iff_header {t : Text} :
    ofHeader t = .table ↔ ∃ header, TableHeader.read? t = some header := by
  rw [ofHeader_eq_table_iff, firstToken?]
  cases ht : tokens t with
  | nil => simp [TableHeader.read?, ht]
  | cons x rest => by_cases hx : x.isWord "table" = true <;> simp [TableHeader.read?, ht, hx]

def TableLine.relationships (table : Text) : TableLine → List Relationship
  | .field head => inlineRelationships table head
  | _ => []

namespace Outline

theorem table?_of_header {o : Outline} {b : Block} {s : Statement} {header : TableHeader} {name : Name}
    (hs : o.header? b = some s) (hheader : TableHeader.read? s.text = some header) (hname : header.name = some name)
    {t : Table}
    (ht : header.settings.foldl Table.withSetting { name := name.value, otherName := header.otherName } = t) :
    o.table? b =
      some ((o.tableLines b).foldl Table.withLine t, (o.tableLines b).flatMap (TableLine.relationships t.name)) := by
  simp only [table?, hs, hheader, hname, Option.bind_eq_bind, Option.bind_some, ht]
  exact congrArg some (Prod.ext rfl (List.flatMap_congr fun line _ => by cases line <;> rfl))

/-! ## More statements and blocks -/

/-- `o'` has more statements and blocks than `o`, and the new statements stand in none of the old blocks. -/
structure Extends (o o' : Outline) (statements : List Statement) (blocks : List Block) : Prop where
  statements_eq : o'.statements = o.statements ++ statements
  blocks_eq : o'.blocks = o.blocks ++ blocks
  fresh : ∀ s ∈ statements, ∀ i, s.context.body? = some i → o.blocks.length ≤ i

namespace Extends

variable {o o' : Outline} {new : List Statement} {bs : List Block} {b : Block}

theorem header?_eq (h : o.Extends o' new bs) (hc : o.Consistent) (hb : b ∈ o.blocks) :
    o'.header? b = o.header? b := by
  rw [header?, header?, h.statements_eq]
  cases hh : b.header with
  | none => rfl
  | some p => exact List.getElem?_append_left (hc.header_lt b hb p hh)

theorem body_eq (h : o.Extends o' new bs) (hc : o.Consistent) (hc' : o'.Consistent) {i : Nat}
    (hb : o.blocks[i]? = some b) : o'.body b = o.body b := by
  have hlt := (List.getElem?_eq_some_iff.mp hb).1
  have hb' : o'.blocks[i]? = some b := by rw [h.blocks_eq, List.getElem?_append_left hlt, hb]
  have hnew : new.filter (·.context.body? = some i) = [] := by
    rw [List.filter_eq_nil_iff]
    intro s hs hsi
    have hge := h.fresh s hs i (by simpa using hsi)
    omega
  rw [hc'.body_eq_filter hb', hc.body_eq_filter hb, h.statements_eq, List.filter_append, hnew, List.append_nil]

theorem table?_eq (h : o.Extends o' new bs) (hc : o.Consistent) (hc' : o'.Consistent) (hb : b ∈ o.blocks) :
    o'.table? b = o.table? b := by
  obtain ⟨i, hi⟩ := List.getElem?_of_mem hb
  simp only [table?, tableLines, h.header?_eq hc hb, h.body_eq hc hc' hi]

theorem enum?_eq (h : o.Extends o' new bs) (hc : o.Consistent) (hc' : o'.Consistent) (hb : b ∈ o.blocks) :
    o'.enum? b = o.enum? b := by
  obtain ⟨i, hi⟩ := List.getElem?_of_mem hb
  simp only [enum?, h.header?_eq hc hb, h.body_eq hc hc' hi]

theorem tables_eq (h : o.Extends o' new bs) (hc : o.Consistent) (hc' : o'.Consistent) :
    o'.tables = o.tables ++ (bs.filter (·.kind = .table)).filterMap o'.table? := by
  rw [tables, tables, h.blocks_eq, List.filter_append, List.filterMap_append]
  congr 1
  apply List.filterMap_congr
  intro b hb
  exact h.table?_eq hc hc' (List.mem_filter.mp hb).1

theorem enums_eq (h : o.Extends o' new bs) (hc : o.Consistent) (hc' : o'.Consistent) :
    o'.enums = o.enums ++ (bs.filter (·.kind = .enum)).filterMap o'.enum? := by
  rw [enums, enums, h.blocks_eq, List.filter_append, List.filterMap_append]
  congr 1
  apply List.filterMap_congr
  intro b hb
  exact h.enum?_eq hc hc' (List.mem_filter.mp hb).1

theorem relationship?_eq (h : o.Extends o' new bs) (hc : o.Consistent) {s : Statement} (hs : s ∈ o.statements) :
    o'.relationship? s = o.relationship? s := by
  cases hctx : s.context with
  | ref block =>
      obtain ⟨kind, hk, -⟩ := hc.context_eq s.context (List.mem_map_of_mem hs) block (by rw [hctx]; rfl)
      have hlt : block < o.blocks.length := by
        have hlt := (List.getElem?_eq_some_iff.mp hk).1
        rwa [kinds, List.length_map] at hlt
      have hname : o'.refBlockName block = o.refBlockName block := by
        rw [refBlockName, refBlockName, h.blocks_eq, List.getElem?_append_left hlt, List.getElem?_eq_getElem hlt]
        simp only [Option.bind_eq_bind, Option.bind_some, h.header?_eq hc (List.getElem_mem hlt)]
      simp only [relationship?, hctx, hname]
  | _ => simp only [relationship?, hctx]

theorem standaloneRelationships_eq (h : o.Extends o' new bs) (hc : o.Consistent) :
    o'.standaloneRelationships = o.standaloneRelationships ++ new.filterMap o'.relationship? := by
  rw [standaloneRelationships, standaloneRelationships, h.statements_eq, List.filterMap_append]
  congr 1
  apply List.filterMap_congr
  intro s hs
  exact h.relationship?_eq hc hs

end Extends
end Outline
end SchemaDiagram
