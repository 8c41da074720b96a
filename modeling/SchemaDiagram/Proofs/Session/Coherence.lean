import SchemaDiagram.Session.Operation
import SchemaDiagram.Proofs.Failure
import SchemaDiagram.Proofs.Layout.Arrange

/-! # Coherence of a session

Whatever an editor does, its diagram goes with the current text: report and schema are those of the
text, every table stands where the layout has its name, and the edges are routed for these places. An
operation that is refused leaves the diagram as it was.
-/
namespace SchemaDiagram

/-- The standard options, or options that a document gives. -/
def Options.Accepted (o : Options Float) : Prop := o = .standard ∨ ∃ t, Options.ofJson t = .ok o

theorem Options.checkScale_of_accepted {o : Options Float} (h : o.Accepted) :
    Failure.checkScale o.routing.scale = .ok () := by
  rcases h with rfl | ⟨t, ht⟩
  · exact Failure.checkScale_eq_ok_iff.mpr (by decide +kernel)
  · simp only [ofJson] at ht
    split at ht
    · cases ht
    · rename_i p _
      cases hs : Failure.checkScale p.routing.scale with
      | error e => simp [hs, Except.map] at ht
      | ok =>
          simp only [hs, Except.map, Except.ok.injEq] at ht
          exact ht ▸ hs

variable {α : Type}

def Operation.text? : Operation α → Option Text
  | .update text => some text
  | _ => none

/-- The text of the last update, `start` before any. -/
def lastText (start : Text) (operations : List (Operation α)) : Text :=
  ((operations.filterMap Operation.text?).getLast?).getD start

theorem lastText_cons (start : Text) (operation : Operation α) (rest : List (Operation α)) :
    lastText start (operation :: rest) = lastText (operation.text?.getD start) rest := by
  simp only [lastText, List.filterMap_cons]
  cases operation.text? with
  | none => rfl
  | some text => simp [List.getLast?_cons]

variable [Coordinate α]

namespace Diagram

/-! ## Runs -/

/-- No operation of the run meets an empty range. -/
def Completes (d : Diagram α) : List (Operation α) → Prop
  | [] => True
  | operation :: rest => d.apply operation ≠ .error .emptyRange ∧ (d.step operation).Completes rest

instance instDecidableCompletes (d : Diagram α) :
    (operations : List (Operation α)) → Decidable (d.Completes operations)
  | [] => isTrue trivial
  | operation :: rest =>
    have := instDecidableCompletes (d.step operation) rest
    inferInstanceAs (Decidable (_ ∧ _))

/-- The operation is refused for a reason that lies in the operation itself. -/
def Refuses (d : Diagram α) : Operation α → Failure α → Prop
  | .move name _, e => name ∉ d.snapshot.layout.names ∧ e = .unknownTable name
  | .setStyle name, e => RoutingStyle.read? name = none ∧ e = .unknownStyle name
  | .setScale scale, e => ¬(Coordinate.isFinite scale = true ∧ 0 < scale) ∧ e = .invalidScale scale
  | .update _, _ | .arrange, _ => False

/-! ## Coherence -/

/-- All but the edges goes with the text. -/
structure Settled (d : Diagram α) (o : Options α) (text : Text) : Prop where
  options_eq : d.options = o
  text_eq : d.text = text
  report_eq : d.snapshot.report = validate text
  schema_eq : d.snapshot.schema = Schema.ofText text
  tables_eq : d.snapshot.tables.map PlacedTable.table = d.snapshot.schema.tables
  fits : d.snapshot.layout.Fits o.metrics d.snapshot.schema.tables
  placed : ∀ t ∈ d.snapshot.tables, d.snapshot.layout.get? t.table.name = some ⟨t.position, t.size⟩
  scale_ok : Coordinate.isFinite d.snapshot.scale = true ∧ 0 < d.snapshot.scale

/-- The diagram goes with the text. -/
structure Coherent (d : Diagram α) (o : Options α) (text : Text) : Prop extends Settled d o text where
  edges_eq : routeEdges o.metrics o.routing d.snapshot.style d.snapshot.scale d.snapshot.tables
    d.snapshot.schema.relationships = .ok d.snapshot.edges

variable {d d' : Diagram α} {o : Options α} {text : Text}

theorem coherent_new (h : Failure.checkScale o.routing.scale = .ok ()) : (new o).Coherent o [] where
  options_eq := rfl
  text_eq := rfl
  report_eq := show (⟨[]⟩ : Report) = validate [] by decide
  schema_eq := show ({} : Schema) = Schema.ofText [] by decide
  tables_eq := rfl
  fits := ⟨List.nodup_nil, by simp [new, Layout.empty, Layout.names], nofun⟩
  placed := nofun
  scale_ok := Failure.checkScale_eq_ok_iff.mp h
  edges_eq := rfl

theorem reroute_eq_ok_iff : d.reroute = .ok d' ↔ ∃ edges,
    routeEdges d.options.metrics d.options.routing d.snapshot.style d.snapshot.scale d.snapshot.tables
      d.snapshot.schema.relationships = .ok edges ∧ { d with snapshot := { d.snapshot with edges } } = d' := by
  rw [reroute, map_eq_ok_iff]
  exact exists_congr fun edges => and_congr_left fun _ => Failure.ofGeometry_eq_ok_iff

theorem Settled.reroute (h : d.Settled o text) (hr : d.reroute = .ok d') : d'.Coherent o text := by
  obtain ⟨edges, he, rfl⟩ := reroute_eq_ok_iff.mp hr
  rw [h.options_eq] at he
  exact { h with edges_eq := he }

theorem Settled.relayout (h : d.Settled o text) {l : Layout α} (hl : l.Fits o.metrics d.snapshot.schema.tables) :
    ({ d with snapshot := { d.snapshot with layout := l, tables := d.snapshot.tables.map l.place } } :
      Diagram α).Settled o text := by
  refine { h with fits := hl, tables_eq := ?_, placed := ?_ }
  · rw [List.map_map, ← h.tables_eq]
    exact List.map_congr_left fun t _ => l.place_table t
  · intro t ht
    obtain ⟨u, hu, rfl⟩ := List.mem_map.mp ht
    apply Layout.get?_place
    rw [hl.mem_names, ← h.tables_eq, List.map_map]
    exact List.mem_map_of_mem (f := Table.name ∘ PlacedTable.table) hu

theorem Settled.retext (h : d.Settled o text) {next : Text} {l : Layout α}
    (hl : l.Fits o.metrics (Schema.ofText next).tables) :
    ({ d with text := next, snapshot := { d.snapshot with
        report := validate next, schema := Schema.ofText next, layout := l,
        tables := (Schema.ofText next).tables.map fun t => l.place (.unplaced t) } } : Diagram α).Settled o next := by
  refine ⟨h.options_eq, rfl, rfl, rfl, ?_, hl, ?_, h.scale_ok⟩
  · rw [List.map_map]
    exact List.map_id'' (fun t => l.place_table (.unplaced t)) _
  · intro t ht
    obtain ⟨u, hu, rfl⟩ := List.mem_map.mp ht
    exact Layout.get?_place ((hl.mem_names _).mpr (List.mem_map_of_mem hu))

/-! ## One lemma for each operation -/

theorem Coherent.update (h : d.Coherent o text) {next : Text} (hu : d.update next = .ok d') :
    d'.Coherent o next := by
  obtain ⟨l, hl, hr⟩ := bind_eq_ok_iff.mp hu
  have hfits := layoutTables_fits (Failure.ofGeometry_eq_ok_iff.mp hl)
  rw [h.options_eq] at hfits
  exact (h.retext hfits).reroute hr

theorem Coherent.moveTable (h : d.Coherent o text) {name : Text} {position : Point α}
    (hm : d.moveTable name position = .ok d') : d'.Coherent o text := by
  simp only [Diagram.moveTable] at hm
  split at hm
  · exact (h.relayout (h.fits.move name position)).reroute hm
  · cases hm

theorem Coherent.setStyle (h : d.Coherent o text) {style : RoutingStyle} (hs : d.setStyle style = .ok d') :
    d'.Coherent o text := by
  refine Settled.reroute ?_ hs
  exact { h with }

theorem Coherent.setScale (h : d.Coherent o text) {scale : α} (hs : d.setScale scale = .ok d') :
    d'.Coherent o text := by
  obtain ⟨_, hc, hr⟩ := bind_eq_ok_iff.mp hs
  refine Settled.reroute ?_ hr
  exact { h with scale_ok := Failure.checkScale_eq_ok_iff.mp hc }

theorem Coherent.arrange (h : d.Coherent o text) (ha : d.arrange = .ok d') : d'.Coherent o text := by
  obtain ⟨l, hl, hr⟩ := bind_eq_ok_iff.mp ha
  have hfits := autoLayout_fits (Failure.ofGeometry_eq_ok_iff.mp hl)
  rw [h.options_eq] at hfits
  exact (h.relayout hfits).reroute hr

theorem Coherent.apply (h : d.Coherent o text) {operation : Operation α} (ha : d.apply operation = .ok d') :
    d'.Coherent o (operation.text?.getD text) := by
  cases operation with
  | update next => exact h.update ha
  | move name position => exact h.moveTable ha
  | setStyle name =>
      simp only [Diagram.apply] at ha
      split at ha
      · exact h.setStyle ha
      · cases ha
  | setScale scale => exact h.setScale ha
  | arrange => exact h.arrange ha

/-! ## Refusals -/

theorem eq_emptyRange_of_reroute {e : Failure α} (h : d.reroute = .error e) : e = .emptyRange :=
  Failure.ofGeometry_ne_error (map_eq_error_iff.mp h)

/-- A failure other than an empty range is one of the three refusals. -/
theorem apply_eq_error_iff {operation : Operation α} {e : Failure α} (he : e ≠ .emptyRange) :
    d.apply operation = .error e ↔ d.Refuses operation e := by
  have hroute : ∀ d : Diagram α, d.reroute ≠ .error e := fun d h => he (eq_emptyRange_of_reroute h)
  have hgeometry : ∀ {β : Type} (x : Except EmptyRange β), Failure.ofGeometry x ≠ .error e :=
    fun x h => he (Failure.ofGeometry_ne_error h)
  cases operation with
  | update next =>
      simp only [Diagram.apply, Diagram.update, Refuses, iff_false]
      intro h
      rcases bind_eq_error_iff.mp h with h | ⟨_, _, h⟩
      · exact hgeometry _ h
      · exact hroute _ h
  | move name position =>
      simp only [Diagram.apply, Diagram.moveTable, Refuses]
      split
      · rename_i hc
        simp [hroute, Layout.contains_iff.mp hc]
      · rename_i hc
        rw [Layout.contains_iff] at hc
        simp [hc, eq_comm]
  | setStyle name =>
      simp only [Diagram.apply, Refuses]
      split
      · rename_i style hs
        simp [hs, Diagram.setStyle, hroute]
      · rename_i hs
        simp [hs, eq_comm]
  | setScale scale =>
      simp only [Diagram.apply, Diagram.setScale, Refuses]
      rw [bind_eq_error_iff, Failure.checkScale_eq_error_iff]
      simp [hroute]
  | arrange =>
      simp only [Diagram.apply, Diagram.arrange, Refuses, iff_false]
      intro h
      rcases bind_eq_error_iff.mp h with h | ⟨_, _, h⟩
      · exact hgeometry _ h
      · exact hroute _ h

theorem step_of_refuses {operation : Operation α} {e : Failure α} (h : d.Refuses operation e) :
    d.step operation = d := by
  have he : e ≠ .emptyRange := by
    rintro rfl
    cases operation <;> simp [Refuses] at h
  rw [step, (apply_eq_error_iff he).mpr h]

/-! ## Runs of any length -/

theorem Coherent.step (h : d.Coherent o text) {operation : Operation α}
    (hc : d.apply operation ≠ .error .emptyRange) :
    (d.step operation).Coherent o (operation.text?.getD text) := by
  simp only [Diagram.step]
  cases ha : d.apply operation with
  | ok next => exact h.apply ha
  | error e =>
      have hr := (apply_eq_error_iff (fun he => hc (he ▸ ha))).mp ha
      cases operation with
      | update _ => exact hr.elim
      | _ => exact h

theorem Coherent.run (h : d.Coherent o text) {operations : List (Operation α)} (hc : d.Completes operations) :
    (d.run operations).Coherent o (lastText text operations) := by
  induction operations generalizing d text with
  | nil => exact h
  | cons operation rest ih => exact lastText_cons text operation rest ▸ ih (h.step hc.1) hc.2

/-- Every run from accepted options gives a diagram that goes with the text of the last update. Its
operations fail only by being refused, and one that is refused changes nothing. -/
theorem run_coherent {o : Options Float} (ho : o.Accepted) {operations : List (Operation Float)}
    (hc : (new o).Completes operations) :
    ((new o).run operations).Coherent o (lastText [] operations) ∧
      ∀ (operation : Operation Float) (e : Failure Float), e ≠ .emptyRange →
        (((new o).run operations).apply operation = .error e ↔ ((new o).run operations).Refuses operation e) ∧
        (((new o).run operations).apply operation = .error e →
          ((new o).run operations).step operation = (new o).run operations) := by
  refine ⟨(coherent_new (Options.checkScale_of_accepted ho)).run hc, ?_⟩
  intro operation e he
  exact ⟨apply_eq_error_iff he, fun h => step_of_refuses ((apply_eq_error_iff he).mp h)⟩

/-- Two tables of one name with a reference, a drag, a drag of a table that does not exist, and changes
of the view. -/
def sampleEdits : List (Operation Float) :=
  [.update "Table a \x7b\n id int\n\x7d\nTable a \x7b\n\x7d\nRef: a.id > a.id".toList, .move "a".toList ⟨5, 7⟩,
   .move "b".toList ⟨0, 0⟩, .setStyle "straight".toList, .setScale 2, .arrange]

theorem run_coherent_sampleEdits :
    Options.standard.Accepted ∧ (new Options.standard).Completes sampleEdits ∧
      ((new .standard).run sampleEdits).Coherent .standard (lastText [] sampleEdits) :=
  ⟨.inl rfl, by decide +kernel, (run_coherent (.inl rfl) (by decide +kernel)).1⟩

end Diagram
end SchemaDiagram
