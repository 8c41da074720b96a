import SchemaDiagram.Options.Basic
import SchemaDiagram.Proofs.Geometry.Double

/-! # Numbers in options

Nothing but its scale is checked about the options of a document. All their measures are numbers none the
less: a document cannot spell what is no number, and what it leaves out has its standard value.
-/
namespace SchemaDiagram

open Coordinate

/-! ## Numerals -/

namespace Numeral

theorem hasMantissa_powerOfTen {n : Nat} (h : n ≤ largestPower) : HasMantissa (powerOfTen n) := by
  -- The first powers stand in a table, and the last one is next to the end of the range.
  have hends : ∀ n ∈ largestPower :: List.range 23, (powerOfTen n).isFinite = true ∧ 0 < powerOfTen n := by
    decide +kernel
  by_cases hn : n ∈ largestPower :: List.range 23
  · exact hasMantissa_of_pos (hends n hn).1 (hends n hn).2
  · simp only [List.mem_cons, List.mem_range, largestPower] at hn h
    exact hasMantissa_ofScientific (by omega) (by omega)

theorem isNumber_scaleDown {x : Float} (h : IsNumber x) (n : Nat) : IsNumber (scaleDown x n) := by
  fun_induction scaleDown x n with
  | case1 x n hn => exact h.div (hasMantissa_powerOfTen hn)
  | case2 x n hn hzero => exact h
  | case3 x n hn hzero ih => exact ih (h.div (hasMantissa_powerOfTen (Nat.le_refl largestPower)))

theorem isNumber_of_scaleUp? {x y : Float} (h : IsNumber x) {n : Nat} (hy : scaleUp? x n = some y) : IsNumber y := by
  simp only [scaleUp?] at hy
  split at hy
  · next hn =>
      split at hy
      · cases hy
      · cases hy
        exact h.mul (hasMantissa_powerOfTen hn)
  · split at hy
    · cases hy
      exact h
    · cases hy

theorem isNumber_of_toFloat? {n : Numeral} {x : Float} (h : n.toFloat? = some x) : IsNumber x := by
  have hsigned : ∀ {m : Float}, IsNumber m → (if n.negative then -m else m) = x → IsNumber x := by
    intro m hm hx
    rw [← hx]
    split
    · exact hm.neg
    · exact hm
  have hvalue := isNumber_ofNat n.parts.1
  rw [toFloat?] at h
  rcases hparts : n.parts with ⟨value, e | e⟩ <;> rw [hparts] at h hvalue
  · obtain ⟨magnitude, hup, hx⟩ := Option.bind_eq_some_iff.mp h
    exact hsigned (isNumber_of_scaleUp? hvalue hup) (Option.some.inj hx)
  · exact hsigned (isNumber_scaleDown hvalue (e + 1)) (Option.some.inj h)

end Numeral

theorem Json.isNumber_of_number? {j : Json} {x : Float} (h : j.number? = some x) : IsNumber x := by
  cases j with
  | number n => exact Numeral.isNumber_of_toFloat? h
  | _ => cases h

/-! ## Records -/

/-- What the standard value and every decoded one has, a field has. -/
theorem Record.of_get? {β : Type} {P : β → Prop} {r : Record} {name : String} {standard b : β}
    {decode : Json → Option β} (h : r.get? name standard decode = some b) (hs : P standard)
    (hdecode : ∀ j c, decode j = some c → P c) : P b := by
  simp only [get?] at h
  split at h
  · exact hdecode _ _ h
  · cases h
    exact hs

theorem Record.isNumber_of_get? {r : Record} {name : String} {standard x : Float}
    (h : r.get? name standard Json.number? = some x) (hs : IsNumber standard) : IsNumber x :=
  of_get? h hs fun _ _ => Json.isNumber_of_number?

/-! ## Sections -/

section

variable {α : Type}

def Metrics.numbers (m : Metrics α) : List α :=
  [m.charWidth, m.headerHeight, m.rowHeight, m.paddingX, m.minWidth, m.maxWidth, m.minHeight, m.maxHeight]

def LayoutOptions.numbers (o : LayoutOptions α) : List α :=
  [o.spacingX, o.spacingY, o.canvasWidth, o.canvasHeight, o.margin, o.groupGap]

def RoutingOptions.numbers (o : RoutingOptions α) : List α :=
  [o.scale, o.curveFactor, o.maxControlDistance, o.cornerRadius, o.laneOffset, o.stub, o.arrowLength, o.arrowWidth]

def Options.numbers (o : Options α) : List α := o.metrics.numbers ++ o.layout.numbers ++ o.routing.numbers

end

theorem Metrics.isNumber_of_decode? {j : Json} {m : Metrics Float} (h : decode? j = some m) :
    ∀ x ∈ m.numbers, IsNumber x := by
  simp only [decode?, Option.bind_eq_bind, Option.bind_eq_some_iff, Option.pure_def, Option.some.injEq] at h
  obtain ⟨r, -, _, h₁, _, h₂, _, h₃, _, h₄, _, h₅, _, h₆, _, h₇, _, h₈, rfl⟩ := h
  have hs : ∀ x ∈ (standard : Metrics Float).numbers, IsNumber x := by decide +kernel
  simp only [numbers, List.forall_mem_cons] at hs ⊢
  obtain ⟨s₁, s₂, s₃, s₄, s₅, s₆, s₇, s₈, -⟩ := hs
  exact ⟨Record.isNumber_of_get? h₁ s₁, Record.isNumber_of_get? h₂ s₂, Record.isNumber_of_get? h₃ s₃,
    Record.isNumber_of_get? h₄ s₄, Record.isNumber_of_get? h₅ s₅, Record.isNumber_of_get? h₆ s₆,
    Record.isNumber_of_get? h₇ s₇, Record.isNumber_of_get? h₈ s₈, nofun⟩

theorem LayoutOptions.isNumber_of_decode? {j : Json} {o : LayoutOptions Float} (h : decode? j = some o) :
    ∀ x ∈ o.numbers, IsNumber x := by
  simp only [decode?, Option.bind_eq_bind, Option.bind_eq_some_iff, Option.pure_def, Option.some.injEq] at h
  obtain ⟨r, -, _, h₁, _, h₂, _, h₃, _, h₄, _, h₅, _, -, _, h₆, rfl⟩ := h
  have hs : ∀ x ∈ (standard : LayoutOptions Float).numbers, IsNumber x := by decide +kernel
  simp only [numbers, List.forall_mem_cons] at hs ⊢
  obtain ⟨s₁, s₂, s₃, s₄, s₅, s₆, -⟩ := hs
  exact ⟨Record.isNumber_of_get? h₁ s₁, Record.isNumber_of_get? h₂ s₂, Record.isNumber_of_get? h₃ s₃,
    Record.isNumber_of_get? h₄ s₄, Record.isNumber_of_get? h₅ s₅, Record.isNumber_of_get? h₆ s₆, nofun⟩

theorem RoutingOptions.isNumber_of_decode? {j : Json} {o : RoutingOptions Float} (h : decode? j = some o) :
    ∀ x ∈ o.numbers, IsNumber x := by
  simp only [decode?, Option.bind_eq_bind, Option.bind_eq_some_iff, Option.pure_def, Option.some.injEq] at h
  obtain ⟨r, -, _, -, _, h₁, _, h₂, _, h₃, _, h₄, _, h₅, _, h₆, _, h₇, _, h₈, rfl⟩ := h
  have hs : ∀ x ∈ (standard : RoutingOptions Float).numbers, IsNumber x := by decide +kernel
  simp only [numbers, List.forall_mem_cons] at hs ⊢
  obtain ⟨s₁, s₂, s₃, s₄, s₅, s₆, s₇, s₈, -⟩ := hs
  exact ⟨Record.isNumber_of_get? h₁ s₁, Record.isNumber_of_get? h₂ s₂, Record.isNumber_of_get? h₃ s₃,
    Record.isNumber_of_get? h₄ s₄, Record.isNumber_of_get? h₅ s₅, Record.isNumber_of_get? h₆ s₆,
    Record.isNumber_of_get? h₇ s₇, Record.isNumber_of_get? h₈ s₈, nofun⟩

namespace Options

theorem isNumber_of_mem_standard : ∀ x ∈ (standard : Options Float).numbers, IsNumber x := by
  decide +kernel

theorem isNumber_of_decode? {j : Json} {o : Options Float} (h : decode? j = some o) : ∀ x ∈ o.numbers, IsNumber x := by
  simp only [decode?, Option.bind_eq_bind, Option.bind_eq_some_iff, Option.pure_def, Option.some.injEq] at h
  obtain ⟨r, -, m, hm, l, hl, q, hq, rfl⟩ := h
  have hs := isNumber_of_mem_standard
  simp only [numbers, List.forall_mem_append] at hs ⊢
  obtain ⟨⟨smetrics, slayout⟩, srouting⟩ := hs
  exact ⟨⟨Record.of_get? hm smetrics fun _ _ => Metrics.isNumber_of_decode?,
    Record.of_get? hl slayout fun _ _ => LayoutOptions.isNumber_of_decode?⟩,
    Record.of_get? hq srouting fun _ _ => RoutingOptions.isNumber_of_decode?⟩

theorem isNumber_of_ofJson {t : Text} {o : Options Float} (h : ofJson t = .ok o) : ∀ x ∈ o.numbers, IsNumber x := by
  rw [ofJson] at h
  split at h
  · cases h
  · next p hp =>
      obtain ⟨j, -, hj⟩ := Option.bind_eq_some_iff.mp hp
      cases hscale : Failure.checkScale p.routing.scale with
      | error e => simp [hscale, Except.map] at h
      | ok =>
          simp only [hscale, Except.map, Except.ok.injEq] at h
          exact h ▸ isNumber_of_decode? hj

end Options
end SchemaDiagram
