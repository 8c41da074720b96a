import SchemaDiagram.Proofs.Session.Derived

/-! # No hidden history

What an operation does depends on what a diagram shows, and not on how it came about. An update reads the
places of the names that its text declares, and a new arrangement reads nothing but the current text. Both
read the way in which edges are drawn.
-/
namespace SchemaDiagram

variable {α : Type}

/-! ## Layouts that agree -/

/-- Both layouts have each of the names at the same position, or neither has it. -/
def Layout.AgreesOn (l l' : Layout α) (names : List Text) : Prop :=
  ∀ name ∈ names, l.position? name = l'.position? name

namespace Layout

instance instDecidableAgreesOn [DecidableEq α] (l l' : Layout α) (names : List Text) :
    Decidable (l.AgreesOn l' names) :=
  inferInstanceAs (Decidable (∀ _ ∈ _, _))

theorem position?_retain (l : Layout α) (keep : Text → Bool) (name : Text) :
    (l.retain keep).position? name = if keep name then l.position? name else none := by
  rw [position?, get?_retain]
  split <;> rfl

theorem isSome_position?_eq (l : Layout α) (name : Text) : (l.position? name).isSome = l.contains name := by
  rw [position?, Option.isSome_map, isSome_get?]

variable {l l' : Layout α} {names : List Text}

theorem AgreesOn.retain (h : l.AgreesOn l' names) (keep : Text → Bool) :
    (l.retain keep).AgreesOn (l'.retain keep) names := by
  intro name hname
  rw [position?_retain, position?_retain, h name hname]

theorem AgreesOn.contains_eq (h : l.AgreesOn l' names) {name : Text} (hname : name ∈ names) :
    l.contains name = l'.contains name := by
  rw [← isSome_position?_eq, ← isSome_position?_eq, h name hname]

theorem AgreesOn.keptPlaces_eq {sized : List (Sized α)} (h : l.AgreesOn l' (sized.map Prod.fst)) :
    keptPlaces l sized = keptPlaces l' sized := by
  have hkept : ∀ (l : Layout α) (s : Sized α),
      ((l.get? s.1).map fun p => (s.1, (⟨p.position, s.2⟩ : Placement α))) =
        (l.position? s.1).map fun position => (s.1, ⟨position, s.2⟩) := by
    intro l s
    rw [position?, Option.map_map]
    rfl
  simp only [keptPlaces, hkept]
  congr 1
  apply List.filterMap_congr
  intro s hs
  rw [h s.1 (List.mem_map_of_mem hs)]

variable [Coordinate α]

/-- The layout with further names, on a grid beside the tables that it has. -/
def beside (o : LayoutOptions α) (kept : Layout α) (fresh : List (Sized α)) : Layout α :=
  let grid := Grid.ofSizes o (fresh.map Prod.snd)
  ⟨kept.entries ++ grid.fill (grid.start o kept.bottom?) fresh⟩

theorem placeNew_eq_beside (o : LayoutOptions α) (l : Layout α) (sized : List (Sized α)) :
    placeNew o l sized = (keptPlaces l sized).beside o (sized.filter fun s => !l.contains s.1) :=
  rfl

theorem AgreesOn.placeNew_eq {sized : List (Sized α)} (h : l.AgreesOn l' (sized.map Prod.fst))
    (o : LayoutOptions α) : placeNew o l sized = placeNew o l' sized := by
  have hfresh : (sized.filter fun s => !l.contains s.1) = sized.filter fun s => !l'.contains s.1 := by
    apply List.filter_congr
    intro s hs
    rw [h.contains_eq (List.mem_map_of_mem hs)]
  rw [placeNew_eq_beside, placeNew_eq_beside, h.keptPlaces_eq, hfresh]

/-- Tables are placed beside what a layout has at their own names, and nothing else of it. -/
theorem AgreesOn.layoutTables_eq {tables : List Table} (h : l.AgreesOn l' (tables.map Table.name))
    (m : Metrics α) (o : LayoutOptions α) : layoutTables m o tables l = layoutTables m o tables l' := by
  cases hs : measureTables m tables with
  | error e => rw [layoutTables, layoutTables, hs]; rfl
  | ok sized =>
      have hsized : l.AgreesOn l' (sized.map Prod.fst) := by
        intro name hname
        rw [names_measureTables hs] at hname
        exact h name (mem_names_firstDeclarations.mp hname)
      rw [layoutTables, layoutTables, hs]
      exact congrArg Except.ok (hsized.placeNew_eq o)

end Layout

/-! ## Diagrams that show the same -/

namespace Diagram

variable [Coordinate α] {d d' : Diagram α} {o : Options α}

/-- The edges that a diagram had are not read when it is made anew. -/
theorem reroute_rebuilt_congr (hoptions : d.options = d'.options) (hstyle : d.snapshot.style = d'.snapshot.style)
    (hscale : d.snapshot.scale = d'.snapshot.scale) (text : Text) (l : Layout α) :
    (d.rebuilt text l).reroute = (d'.rebuilt text l).reroute := by
  simp only [Diagram.reroute, rebuilt, hoptions, hstyle, hscale]

theorem layoutOf_congr (hoptions : d.options = d'.options) {text : Text}
    (h : d.snapshot.layout.AgreesOn d'.snapshot.layout ((Schema.ofText text).tables.map Table.name)) :
    d.layoutOf text = d'.layoutOf text := by
  rw [layoutOf, layoutOf, hoptions]
  exact (h.retain _).layoutTables_eq _ _

/-- A layout that fits the text makes the diagram anew. -/
theorem Built.relayout_eq (h : d.Built o) {l : Layout α} (hl : l.Fits o.metrics d.snapshot.schema.tables) :
    ({ d with snapshot := { d.snapshot with layout := l, tables := d.snapshot.tables.map l.place } } :
      Diagram α) = d.rebuilt d.text l := by
  have htables : d.snapshot.tables.map l.place = l.placeAll d.snapshot.schema.tables := by
    rw [h.tables_eq, hl.map_place]
  simp only [htables, rebuilt, ← h.report_eq, ← h.schema_eq]

theorem Built.arrange_eq (h : d.Built o) :
    d.arrange = Failure.ofGeometry (autoLayout o.metrics o.layout (Schema.ofText d.text).tables
      (Schema.ofText d.text).relationships) >>= fun l => (d.rebuilt d.text l).reroute := by
  obtain rfl := h.options_eq
  rw [Diagram.arrange, ← h.schema_eq]
  cases hl : autoLayout d.options.metrics d.options.layout d.snapshot.schema.tables
      d.snapshot.schema.relationships with
  | error e => rfl
  | ok l => exact congrArg Diagram.reroute (h.relayout_eq (autoLayout_fits hl))

/-- Two sessions with the same options, style and scale. If they have the names of a text at the same positions,
the text leads both to the same diagram; if they have the same text, a new arrangement does so whatever their
positions are. Either both operations fail, or both give equal results, the order of the layout included. -/
theorem history_forgotten (o : Options α) (first second : List (Operation α))
    (hstyle : ((new o).run first).snapshot.style = ((new o).run second).snapshot.style)
    (hscale : ((new o).run first).snapshot.scale = ((new o).run second).snapshot.scale) :
    (∀ text, ((new o).run first).snapshot.layout.AgreesOn ((new o).run second).snapshot.layout
        ((Schema.ofText text).tables.map Table.name) →
      ((new o).run first).update text = ((new o).run second).update text) ∧
    (((new o).run first).text = ((new o).run second).text →
      ((new o).run first).arrange = ((new o).run second).arrange) := by
  have h₁ : ((new o).run first).Derived o := (derived_new o).run first
  have h₂ : ((new o).run second).Derived o := (derived_new o).run second
  have hoptions := h₁.options_eq.trans h₂.options_eq.symm
  constructor
  · intro text hagrees
    rw [update_eq, update_eq, layoutOf_congr hoptions hagrees]
    simp only [reroute_rebuilt_congr hoptions hstyle hscale]
  · intro htext
    rw [h₁.toBuilt.arrange_eq, h₂.toBuilt.arrange_eq, htext]
    simp only [reroute_rebuilt_congr hoptions hstyle hscale]

/-- Two sessions that come to the same text by other ways: the first forgets a table that was moved and has the
names in another order, the second changes the style and back. -/
def forgetfulEdits : List (Operation Float) :=
  [.update "Table b \x7b\n\x7d\nTable old \x7b\n\x7d".toList, .move "old".toList ⟨900, 900⟩, .move "b".toList ⟨7, 9⟩,
   .update "Table a \x7b\n id int\n\x7d\nTable b \x7b\n\x7d".toList, .move "a".toList ⟨300, 20⟩]

def directEdits : List (Operation Float) :=
  [.update "Table a \x7b\n id int\n\x7d\nTable b \x7b\n\x7d".toList, .setStyle "straight".toList,
   .move "a".toList ⟨300, 20⟩, .move "b".toList ⟨7, 9⟩, .setStyle "curved".toList]

theorem history_forgotten_of_edits :
    let d : Diagram Float := (new .standard).run forgetfulEdits
    let d' : Diagram Float := (new .standard).run directEdits
    let text := "Table old \x7b\n\x7d\nTable a \x7b\n\x7d\nRef: a.id > a.id".toList
    d.snapshot.layout ≠ d'.snapshot.layout ∧ d.snapshot.style = d'.snapshot.style ∧
      d.snapshot.scale = d'.snapshot.scale ∧
      d.snapshot.layout.AgreesOn d'.snapshot.layout ((Schema.ofText text).tables.map Table.name) ∧
      d.text = d'.text ∧ d.update text = d'.update text ∧ d.arrange = d'.arrange := by
  intro d d' text
  have hlayouts : d.snapshot.layout ≠ d'.snapshot.layout := by decide +kernel
  have hstyle : d.snapshot.style = d'.snapshot.style := by decide +kernel
  have hscale : d.snapshot.scale = d'.snapshot.scale := by decide +kernel
  have hagrees : d.snapshot.layout.AgreesOn d'.snapshot.layout ((Schema.ofText text).tables.map Table.name) := by
    decide +kernel
  have htext : d.text = d'.text := by decide +kernel
  have hsame := history_forgotten .standard forgetfulEdits directEdits hstyle hscale
  exact ⟨hlayouts, hstyle, hscale, hagrees, htext, hsame.1 text hagrees, hsame.2 htext⟩

end Diagram
end SchemaDiagram
