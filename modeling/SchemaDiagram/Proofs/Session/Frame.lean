import SchemaDiagram.Session.Operation
import SchemaDiagram.Proofs.Failure
import SchemaDiagram.Proofs.Layout.Arrange

/-! # Places that stay

A table that an editor does not touch stays exactly where it is: only its own drag, a new arrangement
of all tables, or a text without it takes its place away.
-/
namespace SchemaDiagram

variable {α : Type}

def Layout.position? (l : Layout α) (name : Text) : Option (Point α) := (l.get? name).map Placement.position

theorem Layout.isSome_position? {l : Layout α} {name : Text} : (l.position? name).isSome ↔ name ∈ l.names := by
  rw [position?, Option.isSome_map, isSome_get?, contains_iff]

theorem Layout.position?_move {l : Layout α} {name other : Text} (h : other ≠ name) (position : Point α) :
    (l.move other position).position? name = l.position? name := by
  simp [position?, get?_move, h.symm]

/-- The operation neither moves the name, nor places all tables anew, nor brings a text without a
table of the name. -/
def Operation.Keeps (name : Text) : Operation α → Prop
  | .update text => name ∈ (Schema.ofText text).tables.map Table.name
  | .move other _ => other ≠ name
  | .setStyle _ | .setScale _ => True
  | .arrange => False

instance Operation.instDecidableKeeps (name : Text) : (operation : Operation α) → Decidable (operation.Keeps name)
  | .update _ => inferInstanceAs (Decidable (_ ∈ _))
  | .move _ _ => inferInstanceAs (Decidable (_ ≠ _))
  | .setStyle _ | .setScale _ => isTrue trivial
  | .arrange => isFalse id

variable [Coordinate α]

/-- A name that has a place keeps it beside new tables, if it is still the name of a table. -/
theorem position?_layoutTables {m : Metrics α} {o : LayoutOptions α} {tables : List Table} {existing l : Layout α}
    (h : layoutTables m o tables (existing.retain fun name => tables.any (·.name = name)) = .ok l) {name : Text}
    (hn : name ∈ existing.names) (ht : name ∈ tables.map Table.name) :
    l.position? name = existing.position? name := by
  cases hp : existing.get? name with
  | none => exact absurd hn (Layout.get?_eq_none_iff.mp hp)
  | some p =>
      have hkeep : tables.any (·.name = name) = true := by simpa [List.any_eq_true] using ht
      have hprior := existing.get?_retain (fun name => tables.any (·.name = name)) name
      rw [hkeep, if_pos rfl, hp] at hprior
      rw [Layout.position?, Layout.position?, hp]
      exact get?_layoutTables h hprior ht

namespace Diagram

variable {d d' : Diagram α} {name : Text}

theorem layout_of_reroute (h : d.reroute = .ok d') : d'.snapshot.layout = d.snapshot.layout := by
  obtain ⟨_, _, rfl⟩ := map_eq_ok_iff.mp h
  rfl

theorem position?_update (hn : name ∈ d.snapshot.layout.names) {text : Text}
    (ht : name ∈ (Schema.ofText text).tables.map Table.name) (h : d.update text = .ok d') :
    d'.snapshot.layout.position? name = d.snapshot.layout.position? name := by
  obtain ⟨l, hl, hr⟩ := bind_eq_ok_iff.mp h
  rw [layout_of_reroute hr]
  exact position?_layoutTables (Failure.ofGeometry_eq_ok_iff.mp hl) hn ht

theorem position?_apply (hn : name ∈ d.snapshot.layout.names) {operation : Operation α}
    (hk : operation.Keeps name) (h : d.apply operation = .ok d') :
    d'.snapshot.layout.position? name = d.snapshot.layout.position? name := by
  cases operation with
  | update text => exact position?_update hn hk h
  | move other position =>
      simp only [Diagram.apply, Diagram.moveTable] at h
      split at h
      · rw [layout_of_reroute h]
        exact Layout.position?_move hk position
      · cases h
  | setStyle style =>
      simp only [Diagram.apply] at h
      split at h
      · rw [layout_of_reroute h]
      · cases h
  | setScale scale =>
      obtain ⟨_, _, hr⟩ := bind_eq_ok_iff.mp h
      rw [layout_of_reroute hr]
  | arrange => exact hk.elim

theorem position?_step (hn : name ∈ d.snapshot.layout.names) {operation : Operation α} (hk : operation.Keeps name) :
    (d.step operation).snapshot.layout.position? name = d.snapshot.layout.position? name := by
  simp only [Diagram.step]
  split
  · rename_i h
    exact position?_apply hn hk h
  · rfl

theorem mem_names_step (hn : name ∈ d.snapshot.layout.names) {operation : Operation α} (hk : operation.Keeps name) :
    name ∈ (d.step operation).snapshot.layout.names := by
  rw [← Layout.isSome_position?] at hn ⊢
  rwa [position?_step (Layout.isSome_position?.mp hn) hk]

theorem position?_run (hn : name ∈ d.snapshot.layout.names) {operations : List (Operation α)}
    (hk : ∀ operation ∈ operations, operation.Keeps name) :
    (d.run operations).snapshot.layout.position? name = d.snapshot.layout.position? name := by
  induction operations generalizing d with
  | nil => rfl
  | cons operation rest ih =>
      have hfirst := hk operation (by simp)
      calc ((d.step operation).run rest).snapshot.layout.position? name
        _ = (d.step operation).snapshot.layout.position? name :=
          ih (mem_names_step hn hfirst) (fun next hnext => hk next (by simp [hnext]))
        _ = d.snapshot.layout.position? name := position?_step hn hfirst

/-- A name that has a place has exactly this place after every operation that keeps it, and after every
run of such operations. -/
theorem place_unchanged (d : Diagram α) {name : Text} {position : Point α}
    (hp : d.snapshot.layout.position? name = some position) :
    (∀ operation : Operation α, operation.Keeps name →
      (d.step operation).snapshot.layout.position? name = some position) ∧
    ∀ operations : List (Operation α), (∀ operation ∈ operations, operation.Keeps name) →
      (d.run operations).snapshot.layout.position? name = some position := by
  have hn : name ∈ d.snapshot.layout.names := Layout.isSome_position?.mp (Option.isSome_of_mem hp)
  constructor
  · intro operation hk
    rw [position?_step hn hk, hp]
  · intro operations hk
    rw [position?_run hn hk, hp]

theorem place_unchanged_of_edits :
    let d : Diagram Float := (new .standard).step (.update "Table a \x7b\n\x7d".toList)
    let edits := [.update "Table b \x7b\n\x7d\nTable a \x7b\n id int\n\x7d".toList, .move "b".toList ⟨0, 0⟩,
      .setScale 3]
    d.snapshot.layout.position? "a".toList = some ⟨510, 370⟩ ∧ (∀ e ∈ edits, Operation.Keeps "a".toList e) ∧
      (d.run edits).snapshot.layout.position? "a".toList = some ⟨510, 370⟩ := by
  intro d edits
  have hp : d.snapshot.layout.position? "a".toList = some ⟨510, 370⟩ := by decide +kernel
  have hk : ∀ e ∈ edits, Operation.Keeps "a".toList e := by decide +kernel
  exact ⟨hp, hk, (place_unchanged d hp).2 edits hk⟩

end Diagram
end SchemaDiagram
