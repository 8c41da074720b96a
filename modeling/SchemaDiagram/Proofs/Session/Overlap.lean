import Mathlib.Data.List.Induction
import SchemaDiagram.Proofs.Layout.Packing
import SchemaDiagram.Proofs.Session.Coherence

/-! # Overlaps come from growth

An update never moves a table, so a table that becomes larger may grow into its neighbour. That is the only
way in which tables come to overlap while an editor changes the text: the tables that an update places
overlap nothing, and tables that keep their place and do not grow stay apart.
-/
namespace SchemaDiagram

/-! ## Growth -/

/-- `q` is wider or higher than `p`. -/
def Placement.Outgrows (q p : Placement ℚ) : Prop := p.size.width < q.size.width ∨ p.size.height < q.size.height

theorem Placement.within_of_not_outgrows {p q : Placement ℚ} (hposition : q.position = p.position)
    (h : ¬q.Outgrows p) : q.rect.Within p.rect := by
  rw [Outgrows, not_or, not_lt, not_lt] at h
  have horigin : q.rect.origin = p.rect.origin := hposition
  refine ⟨horigin ▸ le_refl _, horigin ▸ le_refl _, ?_, ?_⟩
  · rw [Rect.right, Rect.right, horigin]
    exact add_le_add_right h.1 _
  · rw [Rect.bottom, Rect.bottom, horigin]
    exact add_le_add_right h.2 _

/-! ## One layout -/

variable {m : Metrics ℚ} {o : LayoutOptions ℚ} {tables : List Table} {existing l : Layout ℚ} {name other : Text}
  {p q : Placement ℚ}

theorem position_eq_of_layoutTables (h : layoutTables m o tables existing = .ok l) (hp : l.get? name = some p)
    {p₀ : Placement ℚ} (hp₀ : existing.get? name = some p₀) : p.position = p₀.position := by
  have hname : name ∈ l.names := by
    rw [← Layout.contains_iff, ← Layout.isSome_get?, hp]
    rfl
  have hkept := get?_layoutTables h hp₀ (((layoutTables_fits h).mem_names name).mp hname)
  rw [hp] at hkept
  exact Option.some.inj hkept

/-- A table that overlaps another one had its place before. -/
theorem exists_get?_of_overlaps (h : layoutTables m o tables existing = .ok l) (hp : l.get? name = some p)
    (hq : l.get? other = some q) (hne : other ≠ name) (ho : p.rect.Overlaps q.rect) :
    ∃ p₀, existing.get? name = some p₀ := by
  obtain ⟨sized, -, rfl⟩ := map_eq_ok_iff.mp h
  cases hp₀ : existing.get? name with
  | some p₀ => exact ⟨p₀, rfl⟩
  | none =>
      have hnew := Layout.get?_eq_none_iff.mp hp₀
      exact absurd ho (placeNew_disjoint o existing sized (Layout.mem_entries_of_get? hp) hnew
        (Layout.mem_entries_of_get? hq) hne)

/-- Tables that overlap either overlapped before, or one of them has grown. -/
theorem overlaps_or_outgrows (h : layoutTables m o tables existing = .ok l) (hp : l.get? name = some p)
    (hq : l.get? other = some q) (hne : other ≠ name) (ho : p.rect.Overlaps q.rect) :
    ∃ p₀ q₀, existing.get? name = some p₀ ∧ existing.get? other = some q₀ ∧
      (p₀.rect.Overlaps q₀.rect ∨ p.Outgrows p₀ ∨ q.Outgrows q₀) := by
  obtain ⟨p₀, hp₀⟩ := exists_get?_of_overlaps h hp hq hne ho
  obtain ⟨q₀, hq₀⟩ := exists_get?_of_overlaps h hq hp hne.symm ho.symm
  refine ⟨p₀, q₀, hp₀, hq₀, ?_⟩
  by_cases hgrown : p.Outgrows p₀ ∨ q.Outgrows q₀
  · exact .inr hgrown
  · rw [not_or] at hgrown
    have hpw := Placement.within_of_not_outgrows (position_eq_of_layoutTables h hp hp₀) hgrown.1
    have hqw := Placement.within_of_not_outgrows (position_eq_of_layoutTables h hq hq₀) hgrown.2
    exact .inl (ho.of_within hpw hqw)

/-! ## Runs of updates -/

namespace Diagram

variable {d d' : Diagram ℚ} {text : Text}

theorem exists_layout_of_update (h : d.update text = .ok d') :
    layoutTables d.options.metrics d.options.layout (Schema.ofText text).tables
      (d.snapshot.layout.retain fun name => (Schema.ofText text).tables.any (·.name = name)) =
        .ok d'.snapshot.layout := by
  obtain ⟨l, hl, hr⟩ := bind_eq_ok_iff.mp h
  obtain ⟨edges, -, rfl⟩ := reroute_eq_ok_iff.mp hr
  exact Failure.ofGeometry_eq_ok_iff.mp hl

/-- The diagram after the texts, one after another. -/
def afterTexts (o : Options ℚ) (texts : List Text) : Diagram ℚ := (new o).run (texts.map .update)

theorem afterTexts_concat (o : Options ℚ) (texts : List Text) (text : Text) :
    afterTexts o (texts ++ [text]) = (afterTexts o texts).step (.update text) := by
  rw [afterTexts, List.map_append, run, List.foldl_append]
  rfl

theorem get?_of_retain {l : Layout ℚ} {keep : Text → Bool} (h : (l.retain keep).get? name = some p) :
    l.get? name = some p := by
  rw [Layout.get?_retain] at h
  split at h
  · exact h
  · cases h

/-- Tables that overlap after an update either overlapped before, or the update has kept both and made one
of them larger. -/
theorem overlaps_step (hp : (d.step (.update text)).snapshot.layout.get? name = some p)
    (hq : (d.step (.update text)).snapshot.layout.get? other = some q) (hne : other ≠ name)
    (ho : p.rect.Overlaps q.rect) :
    ∃ p₀ q₀, d.snapshot.layout.get? name = some p₀ ∧ d.snapshot.layout.get? other = some q₀ ∧
      (p₀.rect.Overlaps q₀.rect ∨ p.Outgrows p₀ ∨ q.Outgrows q₀) := by
  simp only [step] at hp hq
  cases h : d.apply (.update text) with
  | ok next =>
      rw [h] at hp hq
      obtain ⟨p₀, q₀, hp₀, hq₀, hcases⟩ := overlaps_or_outgrows (exists_layout_of_update h) hp hq hne ho
      exact ⟨p₀, q₀, get?_of_retain hp₀, get?_of_retain hq₀, hcases⟩
  | error e =>
      rw [h] at hp hq
      exact ⟨p, q, hp, hq, .inl ho⟩

/-- When two tables overlap after a run of updates, one of the updates has kept both and made one of them
wider or higher. -/
theorem exists_growth_of_overlaps (o : Options ℚ) (texts : List Text)
    (hp : (afterTexts o texts).snapshot.layout.get? name = some p)
    (hq : (afterTexts o texts).snapshot.layout.get? other = some q) (hne : other ≠ name)
    (ho : p.rect.Overlaps q.rect) :
    ∃ before text after p₀ q₀ p₁ q₁, texts = before ++ text :: after ∧
      (afterTexts o before).snapshot.layout.get? name = some p₀ ∧
      (afterTexts o before).snapshot.layout.get? other = some q₀ ∧
      (afterTexts o (before ++ [text])).snapshot.layout.get? name = some p₁ ∧
      (afterTexts o (before ++ [text])).snapshot.layout.get? other = some q₁ ∧
      (p₁.Outgrows p₀ ∨ q₁.Outgrows q₀) := by
  induction texts using List.reverseRecOn generalizing p q with
  | nil => cases hp
  | append_singleton init text ih =>
      rw [afterTexts_concat] at hp hq
      obtain ⟨p₀, q₀, hp₀, hq₀, hover | hgrown⟩ := overlaps_step hp hq hne ho
      · obtain ⟨before, mid, after, p₁, q₁, p₂, q₂, rfl, h⟩ := ih hp₀ hq₀ hover
        exact ⟨before, mid, after ++ [text], p₁, q₁, p₂, q₂, by simp, h⟩
      · rw [← afterTexts_concat] at hp hq
        exact ⟨init, text, [], p₀, q₀, p, q, rfl, hp₀, hq₀, hp, hq, hgrown⟩

/-- A second text in which a field makes the first of two tables wider. -/
def wideningTexts : List Text :=
  ["Table a \x7b\n\x7d\nTable b \x7b\n\x7d".toList,
    "Table a \x7b\n customer_identification_number int\n\x7d\nTable b \x7b\n\x7d".toList]

theorem exists_growth_of_overlaps_wideningTexts :
    let p : Placement ℚ := ⟨⟨380, 370⟩, ⟨312, 60⟩⟩
    let q : Placement ℚ := ⟨⟨640, 370⟩, ⟨180, 60⟩⟩
    (afterTexts .standard wideningTexts).snapshot.layout.get? "a".toList = some p ∧
      (afterTexts .standard wideningTexts).snapshot.layout.get? "b".toList = some q ∧ p.rect.Overlaps q.rect ∧
      ∃ before text after p₀ q₀ p₁ q₁, wideningTexts = before ++ text :: after ∧
        (afterTexts .standard before).snapshot.layout.get? "a".toList = some p₀ ∧
        (afterTexts .standard before).snapshot.layout.get? "b".toList = some q₀ ∧
        (afterTexts .standard (before ++ [text])).snapshot.layout.get? "a".toList = some p₁ ∧
        (afterTexts .standard (before ++ [text])).snapshot.layout.get? "b".toList = some q₁ ∧
        (p₁.Outgrows p₀ ∨ q₁.Outgrows q₀) := by
  intro p q
  have hp : (afterTexts .standard wideningTexts).snapshot.layout.get? "a".toList = some p := by decide +kernel
  have hq : (afterTexts .standard wideningTexts).snapshot.layout.get? "b".toList = some q := by decide +kernel
  have ho : p.rect.Overlaps q.rect := by decide +kernel
  exact ⟨hp, hq, ho, exists_growth_of_overlaps .standard wideningTexts hp hq (by decide) ho⟩

/-- The field makes the first table reach into the second one. -/
theorem not_disjoint_wideningTexts : ¬(afterTexts .standard wideningTexts).snapshot.layout.Disjoint := by
  intro h
  have hp : (afterTexts .standard wideningTexts).snapshot.layout.get? "a".toList =
      some ⟨⟨380, 370⟩, ⟨312, 60⟩⟩ := by decide +kernel
  have hq : (afterTexts .standard wideningTexts).snapshot.layout.get? "b".toList =
      some ⟨⟨640, 370⟩, ⟨180, 60⟩⟩ := by decide +kernel
  exact h _ _ hp _ _ hq (by decide) (by decide +kernel)

end Diagram
end SchemaDiagram
