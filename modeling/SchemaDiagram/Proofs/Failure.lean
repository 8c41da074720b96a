import Mathlib.Data.List.Forall2
import SchemaDiagram.Failure

/-! # Computations that may fail

When a computation in steps gives a result, every step has given one.
-/
namespace SchemaDiagram

variable {ε α β : Type}

theorem bind_eq_ok_iff {x : Except ε α} {f : α → Except ε β} {b : β} :
    (x >>= f) = .ok b ↔ ∃ a, x = .ok a ∧ f a = .ok b := by
  cases x with
  | error e => simp [bind, Except.bind]
  | ok a => simp [bind, Except.bind]

theorem map_eq_ok_iff {x : Except ε α} {f : α → β} {b : β} :
    (x >>= fun a => pure (f a)) = .ok b ↔ ∃ a, x = .ok a ∧ f a = b := by
  rw [bind_eq_ok_iff]
  simp [pure, Except.pure]

theorem bind_eq_error_iff {x : Except ε α} {f : α → Except ε β} {e : ε} :
    (x >>= f) = .error e ↔ x = .error e ∨ ∃ a, x = .ok a ∧ f a = .error e := by
  cases x with
  | error e => simp [bind, Except.bind]
  | ok a => simp [bind, Except.bind]

theorem map_eq_error_iff {x : Except ε α} {f : α → β} {e : ε} :
    (x >>= fun a => pure (f a)) = .error e ↔ x = .error e := by
  rw [bind_eq_error_iff]
  simp [pure, Except.pure]

theorem forall₂_of_mapM_eq_ok {f : α → Except ε β} {as : List α} {bs : List β} (h : as.mapM f = .ok bs) :
    List.Forall₂ (fun a b => f a = .ok b) as bs := by
  induction as generalizing bs with
  | nil =>
      obtain rfl : [] = bs := by simpa [pure, Except.pure] using h
      exact .nil
  | cons a rest ih =>
      rw [List.mapM_cons] at h
      obtain ⟨b, hb, h⟩ := bind_eq_ok_iff.mp h
      obtain ⟨more, hmore, rfl⟩ := map_eq_ok_iff.mp h
      exact .cons hb (ih hmore)

theorem exists_result_of_mapM_eq_ok {f : α → Except ε β} {as : List α} {bs : List β} (h : as.mapM f = .ok bs) {a : α}
    (ha : a ∈ as) : ∃ b ∈ bs, f a = .ok b := by
  have hall := forall₂_of_mapM_eq_ok h
  clear h
  induction hall with
  | nil => cases ha
  | cons hb _ ih =>
      rcases List.mem_cons.mp ha with rfl | ha
      · exact ⟨_, List.mem_cons_self, hb⟩
      · obtain ⟨c, hc, hfc⟩ := ih ha
        exact ⟨c, List.mem_cons_of_mem _ hc, hfc⟩

theorem exists_argument_of_mapM_eq_ok {f : α → Except ε β} {as : List α} {bs : List β} (h : as.mapM f = .ok bs) {b : β}
    (hb : b ∈ bs) : ∃ a ∈ as, f a = .ok b := by
  have hall := forall₂_of_mapM_eq_ok h
  clear h
  induction hall with
  | nil => cases hb
  | cons ha _ ih =>
      rcases List.mem_cons.mp hb with rfl | hb
      · exact ⟨_, List.mem_cons_self, ha⟩
      · obtain ⟨c, hc, hfc⟩ := ih hb
        exact ⟨c, List.mem_cons_of_mem _ hc, hfc⟩

theorem mapM_eq_ok_map {f : α → Except ε β} {g : α → β} {as : List α} (h : ∀ a ∈ as, f a = .ok (g a)) :
    as.mapM f = .ok (as.map g) := by
  induction as with
  | nil => rfl
  | cons a rest ih =>
      rw [List.mapM_cons, h a List.mem_cons_self, ih fun b hb => h b (List.mem_cons_of_mem a hb)]
      rfl

theorem exists_mapM_eq_ok {f : α → Except ε β} {as : List α} (h : ∀ a ∈ as, ∃ b, f a = .ok b) :
    ∃ bs, as.mapM f = .ok bs := by
  induction as with
  | nil => exact ⟨[], rfl⟩
  | cons a rest ih =>
      obtain ⟨b, hb⟩ := h a (by simp)
      obtain ⟨bs, hbs⟩ := ih fun a ha => h a (by simp [ha])
      refine ⟨b :: bs, ?_⟩
      rw [List.mapM_cons]
      exact bind_eq_ok_iff.mpr ⟨b, hb, map_eq_ok_iff.mpr ⟨bs, hbs, rfl⟩⟩

theorem forall₂_filterMap {R : α → β → Prop} {f : α → Option β} {l : List α}
    (h : ∀ a ∈ l, ∃ b, f a = some b ∧ R a b) : List.Forall₂ R l (l.filterMap f) := by
  induction l with
  | nil => exact .nil
  | cons a rest ih =>
      obtain ⟨b, hb, hr⟩ := h a List.mem_cons_self
      rw [List.filterMap_cons, hb]
      exact .cons hr (ih fun a' ha' => h a' (List.mem_cons_of_mem a ha'))

namespace Failure

/-- Whether a computation meets an empty range can be seen without comparing its results. -/
instance instDecidableEqEmptyRange (x : Except (Failure α) β) : Decidable (x = .error .emptyRange) :=
  match x with
  | .error .emptyRange => isTrue rfl
  | .ok _ => isFalse nofun
  | .error .malformedOptions => isFalse nofun
  | .error (.unknownStyle _) => isFalse nofun
  | .error (.unknownTable _) => isFalse nofun
  | .error (.invalidScale _) => isFalse nofun

theorem ofGeometry_eq_ok_iff {x : Except EmptyRange β} {b : β} :
    (ofGeometry x : Except (Failure α) β) = .ok b ↔ x = .ok b := by
  rcases x with ⟨⟨⟩⟩ | b <;> simp [ofGeometry]

theorem ofGeometry_ne_error {x : Except EmptyRange β} {e : Failure α} (h : ofGeometry x = .error e) :
    e = .emptyRange := by
  rcases x with ⟨⟨⟩⟩ | b
  · exact (Except.error.inj h).symm
  · cases h

theorem checkScale_eq_ok_iff [Coordinate α] {scale : α} :
    checkScale scale = .ok () ↔ Coordinate.isFinite scale = true ∧ 0 < scale := by
  simp only [checkScale]
  split <;> simp_all

theorem checkScale_eq_error_iff [Coordinate α] {scale : α} {e : Failure α} :
    checkScale scale = .error e ↔ ¬(Coordinate.isFinite scale = true ∧ 0 < scale) ∧ e = .invalidScale scale := by
  simp only [checkScale]
  split
  · rename_i h
    simp [h]
  · rename_i h
    simp only [Except.error.injEq, h, not_false_eq_true, true_and]
    exact eq_comm

end Failure
end SchemaDiagram
