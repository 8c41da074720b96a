import SchemaDiagram.Proofs.Options.Number
import SchemaDiagram.Proofs.Routing.Edge
import SchemaDiagram.Proofs.Session.Coherence
import SchemaDiagram.Proofs.Writing.RoundTrip

/-! # Sessions that complete

With options that are accepted, a table always gets a size and a curve its reach. The one range that can be
empty is the height of a table, in which the end of an edge is kept: the options may ask for a negative height.
A session breaks if and only if a table with a field gets one.
-/
namespace SchemaDiagram

/-! ## Sizes -/

section

variable {α : Type} [Coordinate α]

/-- Every table gets a size. -/
def Metrics.Measures (m : Metrics α) : Prop := ∀ t, ∃ size, m.tableSize t = .ok size

/-- No table that a relationship can end at gets a negative height. -/
def Metrics.Upright (m : Metrics α) : Prop :=
  ∀ t size, t.fields ≠ [] → m.tableSize t = .ok size → 0 ≤ size.height

theorem Metrics.Measures.exists_layoutTables {m : Metrics α} (h : m.Measures) (o : LayoutOptions α)
    (tables : List Table) (existing : Layout α) : ∃ l, layoutTables m o tables existing = .ok l := by
  obtain ⟨sized, hsized⟩ := exists_measureTables h tables
  exact ⟨_, map_eq_ok_iff.mpr ⟨sized, hsized, rfl⟩⟩

theorem Metrics.Measures.exists_autoLayout {m : Metrics α} (h : m.Measures) (o : LayoutOptions α)
    (tables : List Table) (relationships : List Relationship) :
    ∃ l, autoLayout m o tables relationships = .ok l := by
  obtain ⟨sized, hsized⟩ := exists_measureTables h tables
  exact ⟨_, map_eq_ok_iff.mpr ⟨sized, hsized, rfl⟩⟩

/-- The height of a table is a matter of the number of its fields. -/
theorem Metrics.height_eq {m : Metrics α} {t u : Table} (h : t.fields.length = u.fields.length) {r s : Size α}
    (ht : m.tableSize t = .ok r) (hu : m.tableSize u = .ok s) : r.height = s.height := by
  obtain ⟨_, _, ht⟩ := bind_eq_ok_iff.mp ht
  obtain ⟨_, _, hu⟩ := bind_eq_ok_iff.mp hu
  obtain ⟨a, ha, rfl⟩ := map_eq_ok_iff.mp ht
  obtain ⟨b, hb, rfl⟩ := map_eq_ok_iff.mp hu
  rw [naturalHeight, h] at ha
  exact Except.ok.inj (ha.symm.trans hb)

end

theorem Metrics.measures_of_isNumber {m : Metrics Float} (hwidth : Coordinate.IsNumber m.minWidth)
    (hheight : Coordinate.IsNumber m.minHeight) : m.Measures := by
  intro t
  obtain ⟨width, hw⟩ := hwidth.exists_clamp (m.naturalWidth t) m.maxWidth
  obtain ⟨height, hh⟩ := hheight.exists_clamp (m.naturalHeight t) m.maxHeight
  exact ⟨_, bind_eq_ok_iff.mpr ⟨width, hw, map_eq_ok_iff.mpr ⟨height, hh, rfl⟩⟩⟩

/-- A smallest height that is not negative is enough, unless a table has so many fields that the height they ask
for is no number. -/
theorem Metrics.upright_of_minHeight {m : Metrics Float} (hmin : Coordinate.IsNumber m.minHeight)
    (hnonneg : 0 ≤ m.minHeight) (hnatural : ∀ t, Coordinate.IsNumber (m.naturalHeight t)) : m.Upright := by
  intro t size _ hsize
  obtain ⟨_, _, hsize⟩ := bind_eq_ok_iff.mp hsize
  obtain ⟨height, hheight, rfl⟩ := map_eq_ok_iff.mp hsize
  exact Coordinate.nonneg_of_clamp hheight (hnatural t) hmin hnonneg

theorem Metrics.upright_standard : (standard : Metrics Float).Upright := by
  refine upright_of_minHeight (by decide +kernel) (by decide +kernel) fun t => ?_
  have hrow : Coordinate.HasMantissa (standard : Metrics Float).rowHeight :=
    Coordinate.hasMantissa_of_pos (by decide +kernel) (by decide +kernel)
  have hheader : Coordinate.HasMantissa (standard : Metrics Float).headerHeight :=
    Coordinate.hasMantissa_of_pos (by decide +kernel) (by decide +kernel)
  exact ((Coordinate.isNumber_ofNat t.fields.length).mul hrow).add hheader

namespace Options

theorem Accepted.isNumber {o : Options Float} (h : o.Accepted) : ∀ x ∈ o.numbers, Coordinate.IsNumber x := by
  rcases h with rfl | ⟨t, ht⟩
  · exact isNumber_of_mem_standard
  · exact isNumber_of_ofJson ht

theorem Accepted.measures {o : Options Float} (h : o.Accepted) : o.metrics.Measures :=
  Metrics.measures_of_isNumber (h.isNumber _ (by simp [numbers, Metrics.numbers]))
    (h.isNumber _ (by simp [numbers, Metrics.numbers]))

theorem Accepted.reaches {o : Options Float} (h : o.Accepted) : o.routing.Reaches :=
  fun _ => (h.isNumber o.routing.stub (by simp [numbers, RoutingOptions.numbers])).exists_clamp _ _

end Options

/-! ## Operations -/

namespace Diagram

section

variable {α : Type} [Coordinate α] {d : Diagram α} {o : Options α} {text : Text}

theorem Settled.tableSize_of_find? (h : d.Settled o text) {name : Text} {t : PlacedTable α}
    (ht : d.snapshot.tables.find? (·.table.name = name) = some t) : o.metrics.tableSize t.table = .ok t.size := by
  obtain ⟨u, hu, hsize⟩ := h.fits.size t.table.name _ (h.placed t (List.mem_of_find?_eq_some ht))
  rw [← h.tables_eq, List.find?_map] at hu
  have hname : t.table.name = name := by simpa using List.find?_some ht
  rw [hname] at hu
  have htu : t.table = u := by simpa [Function.comp_def, ht] using hu
  rw [htu]
  exact hsize

theorem Settled.effectiveSize_of_find? (h : d.Settled o text) {name : Text} {t : PlacedTable α}
    (ht : d.snapshot.tables.find? (·.table.name = name) = some t) : t.effectiveSize o.metrics = .ok t.size := by
  rw [PlacedTable.effectiveSize, h.tableSize_of_find? ht]
  exact ite_self _

theorem Settled.exists_reroute (h : d.Settled o text) (hup : o.metrics.Upright) (hreach : o.routing.Reaches) :
    ∃ d', d.reroute = .ok d' := by
  have hdrawable : Drawable o.metrics d.snapshot.tables := fun name t ht hfields =>
    ⟨t.size, h.effectiveSize_of_find? ht, hup t.table t.size hfields (h.tableSize_of_find? ht)⟩
  obtain ⟨edges, hedges⟩ := hdrawable.exists_routeEdges hreach d.snapshot.style d.snapshot.scale
    d.snapshot.schema.relationships
  rw [← h.options_eq] at hedges
  exact ⟨_, reroute_eq_ok_iff.mpr ⟨edges, hedges, rfl⟩⟩

theorem Coherent.apply_ne_emptyRange (h : d.Coherent o text) (hsize : o.metrics.Measures)
    (hup : o.metrics.Upright) (hreach : o.routing.Reaches) (operation : Operation α) :
    d.apply operation ≠ .error .emptyRange := by
  have hroute : ∀ {d : Diagram α} {text : Text}, d.Settled o text → d.reroute ≠ .error .emptyRange := by
    intro d text h he
    obtain ⟨_, hok⟩ := h.exists_reroute hup hreach
    rw [hok] at he
    cases he
  have hgeometry : ∀ {β : Type} {x : Except EmptyRange β}, (∃ b, x = .ok b) →
      (Failure.ofGeometry x : Except (Failure α) β) ≠ .error .emptyRange := by
    rintro β x ⟨b, rfl⟩ he
    cases he
  have hsize : d.options.metrics.Measures := h.options_eq.symm ▸ hsize
  cases operation with
  | update next =>
      intro he
      rcases bind_eq_error_iff.mp he with he | ⟨l, hl, he⟩
      · exact hgeometry (hsize.exists_layoutTables ..) he
      · have hfits := layoutTables_fits (Failure.ofGeometry_eq_ok_iff.mp hl)
        rw [h.options_eq] at hfits
        exact hroute (h.retext hfits) he
  | move name position =>
      simp only [Diagram.apply, Diagram.moveTable]
      split
      · exact hroute (h.relayout (h.fits.move name position))
      · intro he
        cases he
  | setStyle name =>
      simp only [Diagram.apply]
      split
      · exact hroute { h.toSettled with }
      · intro he
        cases he
  | setScale scale =>
      intro he
      rcases bind_eq_error_iff.mp he with he | ⟨_, hscale, he⟩
      · cases (Failure.checkScale_eq_error_iff.mp he).2
      · have hok : Coordinate.isFinite scale = true ∧ 0 < scale := Failure.checkScale_eq_ok_iff.mp hscale
        have hscaled : Settled { d with snapshot := { d.snapshot with scale } } o text :=
          { h.toSettled with scale_ok := hok }
        exact hroute hscaled he
  | arrange =>
      intro he
      rcases bind_eq_error_iff.mp he with he | ⟨l, hl, he⟩
      · exact hgeometry (hsize.exists_autoLayout ..) he
      · have hfits := autoLayout_fits (Failure.ofGeometry_eq_ok_iff.mp hl)
        rw [h.options_eq] at hfits
        exact hroute (h.relayout hfits) he

theorem Coherent.completes (h : d.Coherent o text) (hsize : o.metrics.Measures)
    (hup : o.metrics.Upright) (hreach : o.routing.Reaches) (operations : List (Operation α)) :
    d.Completes operations := by
  induction operations generalizing d text with
  | nil => trivial
  | cons operation rest ih =>
      have hne := h.apply_ne_emptyRange hsize hup hreach operation
      exact ⟨hne, ih (h.step hne)⟩

end

end Diagram

/-! ## A session that breaks -/

/-- A table with as many fields, and a relationship from the first of them to itself. -/
def Schema.selfReference (count : Nat) : Schema where
  tables := [⟨['a'], none, List.replicate count { name := ['f'], dataType := ['t'] }, none, none⟩]
  relationships := [{ source := ⟨['a'], ['f']⟩, kind := .forward, target := ⟨['a'], ['f']⟩ }]

theorem Schema.writable_selfReference (count : Nat) : (selfReference count).Writable where
  tables t ht := by
    obtain rfl := List.mem_singleton.mp ht
    refine ⟨show ['a'] ≠ [] ∧ Text.OneLine ['a'] by decide, rfl, nofun, nofun, fun f hf => ?_⟩
    obtain rfl := List.eq_of_mem_replicate hf
    decide +kernel
  enums := nofun
  relationships := show ∀ r ∈ (selfReference 0).relationships, r.Writable by decide +kernel

theorem Schema.ofText_selfReference (count : Nat) : ofText (selfReference count).text = selfReference count := by
  rw [ofText_text_eq (writable_selfReference count)]
  simp [inReadingOrder, selfReference, inlineOf, standalone]

namespace Diagram

theorem not_completes {α : Type} [Coordinate α] {o : Options α} (h : Failure.checkScale o.routing.scale = .ok ())
    (hreach : o.routing.Reaches) {t : Table} {size : Size α} (hfields : t.fields ≠ [])
    (hsize : o.metrics.tableSize t = .ok size) (hneg : ¬0 ≤ size.height) :
    ¬(new o).Completes [.update (Schema.selfReference t.fields.length).text] := by
  rintro ⟨hc, -⟩
  have hcoherent := (coherent_new h).step hc
  generalize (new o).step _ = d at hcoherent
  have hschema : d.snapshot.schema = Schema.selfReference t.fields.length := by
    rw [hcoherent.schema_eq]
    exact Schema.ofText_selfReference _
  have htables := hcoherent.tables_eq
  rw [hschema] at htables
  obtain ⟨u, hu, htable⟩ := List.map_eq_singleton_iff.mp htables
  have hfind : d.snapshot.tables.find? (·.table.name = ['a']) = some u := by
    simp [hu, htable]
  have hindex : u.table.fieldIndex? ['f'] = some 0 := by
    rw [htable, Table.fieldIndex?]
    cases hcount : t.fields with
    | nil => exact absurd hcount hfields
    | cons f rest => simp [List.replicate_succ, List.findIdx?_cons]
  have hroute := hcoherent.edges_eq
  rw [hschema] at hroute
  have hheight := height_nonneg_of_routeEdges hreach hroute rfl hfind hindex
    (hcoherent.effectiveSize_of_find? hfind)
  rw [← Metrics.height_eq (by simp [htable]) hsize (hcoherent.tableSize_of_find? hfind)] at hheight
  exact hneg hheight

/-- With options that are accepted, tables can be measured and curves be drawn. All sessions complete if and only
if no table with a field gets a negative height. -/
theorem completes_iff_upright {o : Options Float} (ho : o.Accepted) :
    o.metrics.Measures ∧ o.routing.Reaches ∧
      ((∀ operations, (new o).Completes operations) ↔ o.metrics.Upright) := by
  have hscale := Options.checkScale_of_accepted ho
  refine ⟨ho.measures, ho.reaches, ?_, ?_⟩
  · intro h t size hfields hsize
    by_contra hneg
    exact not_completes hscale ho.reaches hfields hsize hneg (h _)
  · exact fun hup => (coherent_new hscale).completes ho.measures hup ho.reaches

def shallowDocument : Text := "\x7b\"metrics\":\x7b\"minHeight\":-100,\"maxHeight\":-50\x7d\x7d".toList

def shallowOptions : Options Float :=
  { Options.standard with metrics := { Metrics.standard with minHeight := -100, maxHeight := -50 } }

/-- The standard options never break a session; a largest height below zero does. -/
theorem completes_iff_upright_shallowOptions :
    ((Options.standard : Options Float).Accepted ∧ ∀ operations, (new (Options.standard : Options Float)).Completes operations) ∧
      shallowOptions.Accepted ∧ shallowOptions.routing.Reaches ∧ ¬∀ operations, (new shallowOptions).Completes operations :=
  have haccepted : shallowOptions.Accepted := .inr ⟨shallowDocument, by decide +kernel⟩
  have hshallow := completes_iff_upright haccepted
  ⟨⟨.inl rfl, (completes_iff_upright (.inl rfl)).2.2.mpr Metrics.upright_standard⟩, haccepted, hshallow.2.1,
    fun h => by
      have hup := hshallow.2.2.mp h ⟨['a'], none, [⟨['f'], ['t'], false, false, false, false, none, none⟩], none, none⟩
        ⟨180, -50⟩ (List.cons_ne_nil _ _) (by decide +kernel)
      exact absurd hup (by decide +kernel)⟩

theorem not_completes_shallowOptions : Options.ofJson shallowDocument = .ok shallowOptions ∧
    ¬(new shallowOptions).Completes
      [.update "Table a \x7b\n id int\n\x7d\nRef: a.id > a.id".toList] := by
  decide +kernel

end Diagram
end SchemaDiagram
