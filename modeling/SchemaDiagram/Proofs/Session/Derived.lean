import SchemaDiagram.Proofs.Session.Coherence
import SchemaDiagram.Proofs.Session.Frame

/-! # What a diagram is made of

Whatever the options are and whatever an editor does, all that a diagram shows is computed from its text, its
layout, and the way in which edges are drawn. So taking the current text once more changes nothing.
-/
namespace SchemaDiagram

variable {α : Type} [Coordinate α]

namespace Layout

/-- The tables, each where the layout has its name. -/
def placeAll (l : Layout α) (tables : List Table) : List (PlacedTable α) :=
  tables.map fun t => l.place (.unplaced t)

theorem placeAll_congr {l l' : Layout α} (h : ∀ name, l.get? name = l'.get? name) (tables : List Table) :
    l.placeAll tables = l'.placeAll tables :=
  List.map_congr_left fun t _ => by simp only [place, h]

/-- Placing tables that have been placed leaves nothing of their old places. -/
theorem Fits.map_place {l' : Layout α} {m : Metrics α} {tables : List Table} (h : l'.Fits m tables)
    (l : Layout α) : (l.placeAll tables).map l'.place = l'.placeAll tables := by
  rw [placeAll, List.map_map]
  apply List.map_congr_left
  intro t ht
  exact place_place ((h.mem_names t.name).mpr (List.mem_map_of_mem ht))

/-- Layouts of the same tables differ in positions only. -/
theorem Fits.get?_eq {l l' : Layout α} {m : Metrics α} {tables : List Table} (h : l.Fits m tables)
    (h' : l'.Fits m tables) {name : Text} (hp : l.position? name = l'.position? name) :
    l.get? name = l'.get? name := by
  cases hl : l.get? name with
  | none =>
      rw [position?, position?, hl, Option.map_none] at hp
      exact (Option.map_eq_none_iff.mp hp.symm).symm
  | some p =>
      rw [position?, position?, hl, Option.map_some] at hp
      obtain ⟨q, hq, hposition⟩ := Option.map_eq_some_iff.mp hp.symm
      obtain ⟨t, ht, hsize⟩ := h.size name p hl
      obtain ⟨u, hu, hsize'⟩ := h'.size name q hq
      cases ht.symm.trans hu
      have hsizes : p.size = q.size := Except.ok.inj (hsize.symm.trans hsize')
      rw [hq]
      cases p
      cases q
      cases hposition
      cases hsizes
      rfl

end Layout

namespace Diagram

/-! ## The parts of an update -/

/-- The layout of a text's tables, beside the tables that the diagram has placed. -/
def layoutOf (d : Diagram α) (text : Text) : Except EmptyRange (Layout α) :=
  layoutTables d.options.metrics d.options.layout (Schema.ofText text).tables
    (d.snapshot.layout.retain fun name => (Schema.ofText text).tables.any (·.name = name))

/-- The diagram with all but the edges made of the text and the layout. -/
def rebuilt (d : Diagram α) (text : Text) (layout : Layout α) : Diagram α :=
  let schema := Schema.ofText text
  { d with
    text
    snapshot := { d.snapshot with
      report := validate text, schema, tables := layout.placeAll schema.tables, layout } }

theorem update_eq (d : Diagram α) (text : Text) :
    d.update text = Failure.ofGeometry (d.layoutOf text) >>= fun layout => (d.rebuilt text layout).reroute :=
  rfl

/-! ## The invariant -/

/-- All but the edges is made of the text and the layout, and the layout fits the text. -/
structure Built (d : Diagram α) (o : Options α) : Prop where
  options_eq : d.options = o
  report_eq : d.snapshot.report = validate d.text
  schema_eq : d.snapshot.schema = Schema.ofText d.text
  fits : d.snapshot.layout.Fits o.metrics d.snapshot.schema.tables
  tables_eq : d.snapshot.tables = d.snapshot.layout.placeAll d.snapshot.schema.tables

/-- So are the edges. Unlike a coherent diagram, a derived one may have any scale. -/
structure Derived (d : Diagram α) (o : Options α) : Prop extends Built d o where
  edges_eq : d.reroute = .ok d

variable {d d' : Diagram α} {o : Options α}

theorem derived_new (o : Options α) : (new o).Derived o where
  options_eq := rfl
  report_eq := show (⟨[]⟩ : Report) = validate [] by decide
  schema_eq := show ({} : Schema) = Schema.ofText [] by decide
  fits := ⟨List.nodup_nil, by simp [new, Layout.empty, Layout.names], nofun⟩
  tables_eq := rfl
  edges_eq := rfl

theorem Built.reroute (h : d.Built o) (hr : d.reroute = .ok d') : d'.Derived o := by
  obtain ⟨edges, he, rfl⟩ := reroute_eq_ok_iff.mp hr
  exact { h with edges_eq := reroute_eq_ok_iff.mpr ⟨edges, he, rfl⟩ }

theorem Built.relayout (h : d.Built o) {l : Layout α} (hl : l.Fits o.metrics d.snapshot.schema.tables) :
    ({ d with snapshot := { d.snapshot with layout := l, tables := d.snapshot.tables.map l.place } } :
      Diagram α).Built o where
  options_eq := h.options_eq
  report_eq := h.report_eq
  schema_eq := h.schema_eq
  fits := hl
  tables_eq := by simp only [h.tables_eq, hl.map_place]

/-! ## One lemma for each operation -/

theorem Derived.update (h : d.Derived o) {text : Text} (hu : d.update text = .ok d') : d'.Derived o := by
  obtain ⟨l, hl, hr⟩ := bind_eq_ok_iff.mp hu
  have hfits := layoutTables_fits (Failure.ofGeometry_eq_ok_iff.mp hl)
  rw [h.options_eq] at hfits
  refine Built.reroute ?_ hr
  exact ⟨h.options_eq, rfl, rfl, hfits, rfl⟩

theorem Derived.moveTable (h : d.Derived o) {name : Text} {position : Point α}
    (hm : d.moveTable name position = .ok d') : d'.Derived o := by
  simp only [Diagram.moveTable] at hm
  split at hm
  · exact (h.relayout (h.fits.move name position)).reroute hm
  · cases hm

theorem Derived.setStyle (h : d.Derived o) {style : RoutingStyle} (hs : d.setStyle style = .ok d') :
    d'.Derived o := by
  refine Built.reroute ?_ hs
  exact { h with }

theorem Derived.setScale (h : d.Derived o) {scale : α} (hs : d.setScale scale = .ok d') : d'.Derived o := by
  obtain ⟨_, _, hr⟩ := bind_eq_ok_iff.mp hs
  refine Built.reroute ?_ hr
  exact { h with }

theorem Derived.arrange (h : d.Derived o) (ha : d.arrange = .ok d') : d'.Derived o := by
  obtain ⟨l, hl, hr⟩ := bind_eq_ok_iff.mp ha
  have hfits := autoLayout_fits (Failure.ofGeometry_eq_ok_iff.mp hl)
  rw [h.options_eq] at hfits
  exact (h.relayout hfits).reroute hr

theorem Derived.apply (h : d.Derived o) {operation : Operation α} (ha : d.apply operation = .ok d') :
    d'.Derived o := by
  cases operation with
  | update text => exact h.update ha
  | move name position => exact h.moveTable ha
  | setStyle name =>
      simp only [Diagram.apply] at ha
      split at ha
      · exact h.setStyle ha
      · cases ha
  | setScale scale => exact h.setScale ha
  | arrange => exact h.arrange ha

/-! ## Runs -/

theorem Derived.step (h : d.Derived o) (operation : Operation α) : (d.step operation).Derived o := by
  simp only [Diagram.step]
  split
  · rename_i next ha
    exact h.apply ha
  · exact h

theorem Derived.run (h : d.Derived o) (operations : List (Operation α)) : (d.run operations).Derived o := by
  induction operations generalizing d with
  | nil => exact h
  | cons operation rest ih => exact ih (h.step operation)

/-! ## Taking the same text again -/

theorem reroute_layout (h : d.reroute = .ok d) (l : Layout α) :
    ({ d with snapshot := { d.snapshot with layout := l } } : Diagram α).reroute =
      .ok { d with snapshot := { d.snapshot with layout := l } } := by
  obtain ⟨edges, he, hd⟩ := reroute_eq_ok_iff.mp h
  refine reroute_eq_ok_iff.mpr ⟨edges, he, ?_⟩
  rw [← hd]

/-- The tables of the current text have their places already. -/
theorem Built.exists_layoutOf_text (h : d.Built o) :
    ∃ l, d.layoutOf d.text = .ok l ∧ ∀ name, l.get? name = d.snapshot.layout.get? name := by
  have hplaced := h.fits
  rw [h.schema_eq, ← h.options_eq] at hplaced
  obtain ⟨sized, hsized⟩ := hplaced.exists_measureTables
  obtain ⟨l, hl⟩ : ∃ l, d.layoutOf d.text = .ok l := ⟨_, map_eq_ok_iff.mpr ⟨sized, hsized, rfl⟩⟩
  have hfits := layoutTables_fits hl
  refine ⟨l, hl, fun name => hfits.get?_eq hplaced ?_⟩
  by_cases hn : name ∈ d.snapshot.layout.names
  · exact position?_layoutTables hl hn ((hplaced.mem_names name).mp hn)
  · have hnew : name ∉ l.names := by rwa [hfits.mem_names, ← hplaced.mem_names]
    rw [Layout.position?, Layout.position?, Layout.get?_eq_none_iff.mpr hn, Layout.get?_eq_none_iff.mpr hnew]

theorem Built.rebuilt_text (h : d.Built o) {l : Layout α} (hl : ∀ name, l.get? name = d.snapshot.layout.get? name) :
    d.rebuilt d.text l = { d with snapshot := { d.snapshot with layout := l } } := by
  have htables : l.placeAll d.snapshot.schema.tables = d.snapshot.tables := by
    rw [h.tables_eq, Layout.placeAll_congr hl]
  simp only [rebuilt, ← h.report_eq, ← h.schema_eq, htables]

/-- Whatever has been done before, taking the current text once more keeps everything: the layout may have its
names in another order, but every name has the place that it had. -/
theorem update_text (o : Options α) (operations : List (Operation α)) :
    let d := (new o).run operations
    ∃ l : Layout α, d.update d.text = .ok { d with snapshot := { d.snapshot with layout := l } } ∧
      ∀ name, l.get? name = d.snapshot.layout.get? name := by
  intro d
  have h : d.Derived o := (derived_new o).run operations
  obtain ⟨l, hl, hget⟩ := h.exists_layoutOf_text
  refine ⟨l, ?_, hget⟩
  calc d.update d.text
    _ = (d.rebuilt d.text l).reroute := by rw [update_eq, hl]; rfl
    _ = ({ d with snapshot := { d.snapshot with layout := l } } : Diagram α).reroute := by rw [h.rebuilt_text hget]
    _ = .ok { d with snapshot := { d.snapshot with layout := l } } := reroute_layout h.edges_eq l

end Diagram
end SchemaDiagram
