import Mathlib
import SchemaDiagram.Geometry.Coordinate

/-! # Doubles as coordinates

Of the doubles only the one that is no number is not at most itself, and no comparison with it holds. It
is kept out by what the options are decoded with: whole numbers are numbers, and so are their products with,
and their quotients by, finite numbers other than zero. A power of ten in the range of doubles is one of these,
for which its rounding has to be followed.
-/
namespace SchemaDiagram
namespace Coordinate

open Float.Model

/-! ## Unpacked doubles -/

namespace Unpacked

variable {spec : Format} {a b : UnpackedFloat}

theorem le_self (h : a.isNaN = false) : a.le a = true := by
  cases a with
  | notANumber => cases h
  | infinity s => cases s <;> rfl
  | zero s => rfl
  | finite s m e hm => cases s <;> simp [UnpackedFloat.le, UnpackedFloat.compare]

theorem le_of_lt (h : a.lt b = true) : a.le b = true := by
  rw [UnpackedFloat.lt, beq_iff_eq] at h
  rw [UnpackedFloat.le, h]
  rfl

/-- Two numbers can be compared, and from either side with the same outcome. -/
theorem exists_compare (ha : a.isNaN = false) (hb : b.isNaN = false) :
    ∃ o : Ordering, a.compare b = some o ∧ b.compare a = some o.swap := by
  have hswap : ∀ {m n : Nat} {e f : Int},
      ((compare e f).then (compare m n)).swap = (compare f e).then (compare n m) := by
    intro m n e f
    rw [Ordering.swap_then, ← Std.OrientedCmp.eq_swap, ← Std.OrientedCmp.eq_swap]
  rcases a with (_ | _) | _ | _ | ⟨_ | _, m, e, hm⟩ <;> rcases b with (_ | _) | _ | _ | ⟨_ | _, n, f, hn⟩ <;>
    first
    | exact Bool.noConfusion ha
    | exact Bool.noConfusion hb
    | exact ⟨_, rfl, rfl⟩
    | exact ⟨_, rfl, congrArg some hswap.symm⟩
    | exact ⟨_, rfl, congrArg some (by rw [Ordering.swap_swap, hswap])⟩

theorem lt_or_le (ha : a.isNaN = false) (hb : b.isNaN = false) : a.lt b = true ∨ b.le a = true := by
  obtain ⟨o, hab, hba⟩ := exists_compare ha hb
  rw [UnpackedFloat.lt, UnpackedFloat.le, hab, hba]
  cases o
  · exact .inl rfl
  · exact .inr rfl
  · exact .inr rfl

theorem nonneg_of_le (ha : (UnpackedFloat.zero .positive).le a = true) (hab : a.le b = true) :
    (UnpackedFloat.zero .positive).le b = true := by
  rcases a with (_ | _) | _ | _ | ⟨_ | _, m, e, hm⟩ <;> rcases b with (_ | _) | _ | _ | ⟨_ | _, n, f, hn⟩ <;>
    first
    | rfl
    | exact Bool.noConfusion ha
    | exact Bool.noConfusion hab

theorem isNaN_unpack {bits : BitVec spec.numBits}
    (h : UnpackedFloat.unpackExponent bits ≠ -1#_ ∨ UnpackedFloat.unpackMantissa bits = 0#_) :
    (UnpackedFloat.unpack spec bits).isNaN = false := by
  simp only [UnpackedFloat.unpack]
  split
  · next hexponent =>
      rw [if_pos (h.resolve_left (not_not_intro hexponent))]
      rfl
  · split
    · split <;> rfl
    · rfl

/-- An exponent below the largest one is not taken for that of an infinity. -/
theorem exponent_ne {n : Nat} (h : n + 1 < 2 ^ spec.exponentBits) : BitVec.ofNat spec.exponentBits n ≠ -1#_ := by
  intro heq
  have hn := congrArg BitVec.toNat heq
  rw [BitVec.toNat_ofNat, Nat.mod_eq_of_lt (by omega), BitVec.neg_one_eq_allOnes, BitVec.toNat_allOnes] at hn
  omega

theorem isNaN_pack (h : a.isNaN = false) :
    (UnpackedFloat.unpack spec (UnpackedFloat.pack spec a)).isNaN = false := by
  apply isNaN_unpack
  cases a with
  | notANumber => cases h
  | infinity s => exact .inr UnpackedFloat.unpackMantissa_packComponents
  | zero s => exact .inr UnpackedFloat.unpackMantissa_packComponents
  | finite s m e hm =>
      simp only [UnpackedFloat.pack]
      split
      · exact .inr UnpackedFloat.unpackMantissa_packComponents
      · next hsmall =>
          left
          split
          · rw [UnpackedFloat.unpackExponent_packComponents]
            exact exponent_ne (by omega)
          · rw [UnpackedFloat.unpackExponent_packComponents]
            have hone := Nat.pow_lt_pow_right (a := 2) (by omega) spec.he
            exact exponent_ne hone

theorem isNaN_roundWithAccuracy (s : UnpackedFloat.Sign) (m : Nat) (e : Int) (accuracy : UnpackedFloat.Accuracy) :
    (UnpackedFloat.roundWithAccuracy spec s m e accuracy).isNaN = false := by
  simp only [UnpackedFloat.roundWithAccuracy]
  split <;> rfl

theorem isNaN_normalize (m e : Int) (s : UnpackedFloat.Sign) :
    (UnpackedFloat.normalize spec m e s).isNaN = false := by
  simp only [UnpackedFloat.normalize]
  split
  · exact isNaN_roundWithAccuracy ..
  · rfl
  · exact isNaN_roundWithAccuracy ..

theorem isNaN_add (h : a.isNaN = false) {s : UnpackedFloat.Sign} {m : Nat} {e : Int} (hm : 0 < m) :
    (UnpackedFloat.add spec a (.finite s m e hm)).isNaN = false := by
  cases a with
  | notANumber => cases h
  | finite _ _ _ _ => exact isNaN_normalize ..
  | _ => rfl

theorem isNaN_mul (h : a.isNaN = false) {s : UnpackedFloat.Sign} {m : Nat} {e : Int} (hm : 0 < m) :
    (UnpackedFloat.mul spec a (.finite s m e hm)).isNaN = false := by
  cases a with
  | notANumber => cases h
  | finite _ _ _ _ => exact isNaN_roundWithAccuracy ..
  | _ => rfl

theorem isNaN_div (h : a.isNaN = false) {s : UnpackedFloat.Sign} {m : Nat} {e : Int} (hm : 0 < m) :
    (UnpackedFloat.div spec a (.finite s m e hm)).isNaN = false := by
  cases a with
  | notANumber => cases h
  | finite _ _ _ _ => exact isNaN_roundWithAccuracy ..
  | _ => rfl

theorem isNaN_neg (h : a.isNaN = false) : a.neg.isNaN = false := by
  cases a with
  | notANumber => cases h
  | _ => rfl

theorem isNaN_ofNat (n : Nat) : (UnpackedFloat.ofNat spec n).isNaN = false := isNaN_normalize ..

theorem isNaN_ofScientific (m : Nat) (e : Int) : (UnpackedFloat.ofScientific spec m e).isNaN = false := by
  simp only [UnpackedFloat.ofScientific]
  repeat' split
  · rfl
  · rfl
  · rfl
  · exact isNaN_mul rfl _
  · exact isNaN_div rfl _

/-! ### Numbers of full precision -/

open UnpackedFloat (ExtendedMantissa Accuracy Sign roundWithAccuracy shiftToTargetExponent shiftToExponent
  unpackExponent unpackExponent_packComponents)

theorem mantissa_shiftRight (em : ExtendedMantissa) (n : Nat) : (em >>> n).mantissa = em.mantissa / 2 ^ n := by
  have hrepeat : em >>> n = n.repeat ExtendedMantissa.shiftRightOne em := rfl
  rw [hrepeat]
  induction n with
  | zero => simp [Nat.repeat]
  | succ n ih =>
      rw [Nat.repeat, ExtendedMantissa.shiftRightOne, ih rfl, Nat.pow_succ, Nat.div_div_eq_div_mul]

theorem roundedMantissa_mem (em : ExtendedMantissa) :
    em.mantissa ≤ em.roundedMantissa ∧ em.roundedMantissa ≤ em.mantissa + 1 := by
  rw [ExtendedMantissa.roundedMantissa]
  rcases em.accuracy with - | (- | - | -) <;> simp only [Accuracy.roundToNearestEven] <;> omega

/-- A mantissa with `k` bits too many is shifted by `k` bits, if its exponent is not too small. -/
theorem shiftToTargetExponent_exact {m k : Nat} {e : Int} (hlog : m.log2 = 52 + k) (he : -1074 ≤ e) :
    (shiftToTargetExponent Format.binary64 m e .exact).1.mantissa = m / 2 ^ k ∧
      (shiftToTargetExponent Format.binary64 m e .exact).2 = e + k := by
  have htarget : Format.binary64.targetExponent (totalExponent m e) = e + k := by
    have hmin : Format.binary64.minExponent = -1074 := rfl
    have hbits : Format.binary64.mantissaBits = 53 := rfl
    rw [Format.targetExponent, totalExponent, hlog, hmin, hbits]
    omega
  have hshift : (e + k - e).toNat = k := by omega
  simp only [shiftToTargetExponent, shiftToExponent, htarget, hshift, mantissa_shiftRight, and_true]
  rfl

theorem exists_roundWithAccuracy (s : Sign) {m k : Nat} {e : Int} (hm : m ≠ 0) (hlog : m.log2 = 52 + k)
    (he : -1074 ≤ e) :
    ∃ n f hn, roundWithAccuracy Format.binary64 s m e .exact = .finite s n f hn ∧ n.log2 = 52 ∧
      e + k ≤ f ∧ f ≤ e + k + 1 := by
  obtain ⟨hfirst, hexponent⟩ := shiftToTargetExponent_exact hlog he
  rcases hshift : shiftToTargetExponent Format.binary64 m e .exact with ⟨em, f⟩
  rw [hshift] at hfirst hexponent
  have hexponent : f = e + k := hexponent
  have hlow : 2 ^ 52 ≤ em.mantissa := by
    rw [hfirst, Nat.le_div_iff_mul_le (Nat.two_pow_pos k), ← Nat.pow_add, ← hlog]
    exact Nat.log2_self_le hm
  have hhigh : em.mantissa < 2 ^ 53 := by
    rw [hfirst, Nat.div_lt_iff_lt_mul (Nat.two_pow_pos k), ← Nat.pow_add, show 53 + k = m.log2 + 1 by omega]
    exact Nat.lt_log2_self
  have hround := roundedMantissa_mem em
  -- Rounding up may take one more bit, which a second shift takes away again.
  obtain ⟨j, hj, hr, hn⟩ : ∃ j ≤ 1, em.roundedMantissa.log2 = 52 + j ∧ (em.roundedMantissa / 2 ^ j).log2 = 52 := by
    rcases Nat.lt_or_ge em.roundedMantissa (2 ^ 53) with hlt | hge
    · have hlog : em.roundedMantissa.log2 = 52 := (Nat.log2_eq_iff (by omega)).mpr ⟨by omega, hlt⟩
      exact ⟨0, by omega, hlog, by simpa using hlog⟩
    · have heq : em.roundedMantissa = 2 ^ 53 := by omega
      refine ⟨1, Nat.le_refl 1, ?_, ?_⟩ <;> rw [heq] <;> decide
  obtain ⟨hsecond, hexponent'⟩ := shiftToTargetExponent_exact (e := f) hr (by omega)
  have hne : (shiftToTargetExponent Format.binary64 em.roundedMantissa f .exact).1.mantissa ≠ 0 := by
    intro hzero
    rw [← hsecond, hzero] at hn
    simp at hn
  refine ⟨_, (shiftToTargetExponent Format.binary64 em.roundedMantissa f .exact).2, Nat.pos_of_ne_zero hne, ?_,
    by rw [hsecond]; exact hn, by omega, by omega⟩
  simp only [roundWithAccuracy, hshift]
  rw [dif_neg hne]

theorem exists_unpack {bits : BitVec spec.numBits} (hinfinite : unpackExponent bits ≠ -1#_)
    (hzero : unpackExponent bits ≠ 0#_) : ∃ s m e hm, UnpackedFloat.unpack spec bits = .finite s m e hm := by
  simp only [UnpackedFloat.unpack]
  rw [if_neg hinfinite, if_neg hzero]
  refine ⟨_, _, _, ?_, rfl⟩
  simp

theorem exists_unpack_pack (s : Sign) {m : Nat} {e : Int} (hm : 0 < m) (hlog : m.log2 = 52) (hlow : -1074 ≤ e)
    (hhigh : e ≤ 971) :
    ∃ t n f hn, UnpackedFloat.unpack Format.binary64 (UnpackedFloat.pack Format.binary64 (.finite s m e hm)) =
      .finite t n f hn := by
  have hbias : (Format.binary64.exponentBias : Int) = 1023 := rfl
  obtain ⟨biased, hbiased⟩ : ∃ n : Nat, e + 1023 + (52 : Nat) = n := ⟨(e + 1075).toNat, by omega⟩
  have hlarge : biased + 1 < 2 ^ Format.binary64.exponentBits := show biased + 1 < 2 ^ 11 by omega
  simp only [UnpackedFloat.pack, hbias, hlog, hbiased, Int.toNat_natCast]
  rw [if_neg (Nat.not_le.mpr hlarge), if_pos (by decide)]
  apply exists_unpack <;> rw [unpackExponent_packComponents]
  · exact exponent_ne hlarge
  · intro heq
    have hn := congrArg BitVec.toNat heq
    rw [BitVec.toNat_ofNat, Nat.mod_eq_of_lt (Nat.lt_of_succ_lt hlarge)] at hn
    simp only [BitVec.toNat_ofNat, Nat.zero_mod] at hn
    omega

/-- A power of ten is read as the rounding of that power, with a factor and a divisor that give it precision. -/
theorem ofScientific_one {n : Nat} (h : n ≤ 2 ^ 11) :
    UnpackedFloat.ofScientific Format.binary64 1 (Int.ofNat n) =
      roundWithAccuracy Format.binary64 .positive ((1 <<< 53) * 10 ^ n) (-53) .exact := by
  have hlarge : ¬Int.ofNat n > 2 ^ 11 := by rw [Int.ofNat_eq_natCast]; omega
  have hsmall : ¬Int.ofNat n < -((2 ^ 11 : Int) + Nat.log2 1) := by rw [Int.ofNat_eq_natCast]; omega
  rw [UnpackedFloat.ofScientific, dif_neg (by decide), if_neg hlarge, if_neg hsmall,
    if_pos (show 0 ≤ Int.ofNat n from Int.natCast_nonneg n)]
  rfl

end Unpacked

/-! ## Doubles -/

/-- A double that is a number or an infinity. -/
def IsNumber (x : Float) : Prop := x.isNaN = false

instance (x : Float) : Decidable (IsNumber x) := inferInstanceAs (Decidable (_ = _))

variable {x y : Float}

theorem isNumber_ofModel_pack {a : UnpackedFloat} (h : a.isNaN = false) : IsNumber ⟨.pack a⟩ :=
  Unpacked.isNaN_pack h

theorem IsNumber.le_self (h : IsNumber x) : x ≤ x :=
  decide_eq_true (p := x.toModel ≤ x.toModel) (Unpacked.le_self h)

protected theorem le_of_lt (h : x < y) : x ≤ y := by
  have hlt : x.toModel.unpack.lt y.toModel.unpack = true := of_decide_eq_true h
  exact decide_eq_true (p := x.toModel ≤ y.toModel) (Unpacked.le_of_lt hlt)

theorem IsNumber.lt_or_le (hx : IsNumber x) (hy : IsNumber y) : x < y ∨ y ≤ x :=
  (Unpacked.lt_or_le hx hy).imp (fun h => decide_eq_true (p := x.toModel < y.toModel) h)
    fun h => decide_eq_true (p := y.toModel ≤ x.toModel) h

theorem unpack_zero : (0 : Float).toModel.unpack = .zero .positive := rfl

theorem nonneg_of_le (hx : 0 ≤ x) (hxy : x ≤ y) : 0 ≤ y := by
  have hx' : (0 : Float).toModel.unpack.le x.toModel.unpack = true := of_decide_eq_true hx
  have hxy' : x.toModel.unpack.le y.toModel.unpack = true := of_decide_eq_true hxy
  have hy : (0 : Float).toModel.unpack.le y.toModel.unpack = true := Unpacked.nonneg_of_le hx' hxy'
  exact decide_eq_true (p := (0 : Float).toModel ≤ y.toModel) hy

/-- A double that is finite and not zero. -/
def HasMantissa (y : Float) : Prop := ∃ s m e hm, y.toModel.unpack = .finite s m e hm

theorem hasMantissa_of_pos (hfinite : y.isFinite = true) (hpos : 0 < y) : HasMantissa y := by
  have hfinite' : y.toModel.unpack.isFinite = true := hfinite
  have hlt : (0 : Float).toModel.unpack.lt y.toModel.unpack = true := of_decide_eq_true hpos
  rw [unpack_zero] at hlt
  cases hy : y.toModel.unpack with
  | finite s m e hm => exact ⟨s, m, e, hm, hy⟩
  | _ => rw [hy] at hfinite' hlt; cases hfinite' <;> cases hlt

/-- The powers of ten that stand in no table, up to the last one for which a rough bound will do. -/
theorem hasMantissa_ofScientific {n : Nat} (hlow : 22 < n) (hhigh : n ≤ 307) :
    HasMantissa (Float.ofScientific 1 false n) := by
  have hpos : 0 < 10 ^ n := Nat.pow_pos (by decide)
  have hne : (1 <<< 53) * 10 ^ n ≠ 0 := Nat.mul_ne_zero (by decide) (Nat.ne_of_gt hpos)
  obtain ⟨k, hlog, hk⟩ : ∃ k, ((1 <<< 53) * 10 ^ n).log2 = 52 + k ∧ k ≤ 1022 := by
    have hleast : 52 ≤ ((1 <<< 53) * 10 ^ n).log2 := (Nat.le_log2 hne).mpr (by omega)
    have hmost : ((1 <<< 53) * 10 ^ n).log2 < 1075 := (Nat.log2_lt hne).mpr <| calc
      (1 <<< 53) * 10 ^ n ≤ (1 <<< 53) * 10 ^ 307 :=
        Nat.mul_le_mul_left _ (Nat.pow_le_pow_right (by decide) hhigh)
      _ < 2 ^ 1075 := by decide +kernel
    exact ⟨((1 <<< 53) * 10 ^ n).log2 - 52, by omega, by omega⟩
  obtain ⟨m, e, hm, hround, hbits, hleast, hmost⟩ :=
    Unpacked.exists_roundWithAccuracy .positive hne hlog (e := -53) (by omega)
  obtain ⟨s, m', e', hm', hpack⟩ := Unpacked.exists_unpack_pack .positive (e := e) hm hbits (by omega) (by omega)
  refine ⟨s, m', e', hm', ?_⟩
  rw [Float.ofScientific, dif_neg (by omega), ← hpack, ← hround, ← Unpacked.ofScientific_one (by omega)]
  rfl

theorem IsNumber.add (h : IsNumber x) (hy : HasMantissa y) : IsNumber (x + y) := by
  obtain ⟨s, m, e, hm, hy⟩ := hy
  refine isNumber_ofModel_pack ?_
  rw [hy]
  exact Unpacked.isNaN_add h hm

theorem IsNumber.mul (h : IsNumber x) (hy : HasMantissa y) : IsNumber (x * y) := by
  obtain ⟨s, m, e, hm, hy⟩ := hy
  refine isNumber_ofModel_pack ?_
  rw [hy]
  exact Unpacked.isNaN_mul h hm

theorem IsNumber.div (h : IsNumber x) (hy : HasMantissa y) : IsNumber (x / y) := by
  obtain ⟨s, m, e, hm, hy⟩ := hy
  refine isNumber_ofModel_pack ?_
  rw [hy]
  exact Unpacked.isNaN_div h hm

theorem IsNumber.neg (h : IsNumber x) : IsNumber (-x) := isNumber_ofModel_pack (Unpacked.isNaN_neg h)

theorem isNumber_ofNat (n : Nat) : IsNumber (Float.ofNat n) := by
  have hpowers : ∀ i : Fin 23, Float.exactlyRepresentablePowersOfTen[i].isFinite = true ∧
      0 < Float.exactlyRepresentablePowersOfTen[i] := by decide +kernel
  simp only [Float.ofNat, OfScientific.ofScientific, Float.ofScientific]
  split
  · exact (isNumber_ofModel_pack (Unpacked.isNaN_ofNat _)).mul (hasMantissa_of_pos (hpowers 0).1 (hpowers 0).2)
  · exact isNumber_ofModel_pack (Unpacked.isNaN_ofScientific _ _)

/-! ## Bounds -/

theorem IsNumber.le_larger (h : IsNumber y) (x : Float) : y ≤ larger x y := by
  simp only [larger]
  split
  · next hlt => exact Coordinate.le_of_lt hlt
  · rw [if_pos h.le_self]
    exact h.le_self

/-- A value can be kept between a number and the larger one of that number and another. -/
theorem IsNumber.exists_clamp {low : Float} (h : IsNumber low) (a high : Float) :
    ∃ b, clamp a low (larger high low) = .ok b :=
  ⟨_, if_pos (h.le_larger high)⟩

theorem nonneg_of_clamp {a low high b : Float} (h : clamp a low high = .ok b) (ha : IsNumber a) (hlow : IsNumber low)
    (hnonneg : 0 ≤ low) : 0 ≤ b := by
  simp only [clamp] at h
  split at h
  · next hle =>
      cases h
      split
      · exact hnonneg
      · next hlt =>
          split
          · exact nonneg_of_le hnonneg hle
          · exact nonneg_of_le hnonneg ((ha.lt_or_le hlow).resolve_left hlt)
  · cases h

end Coordinate
end SchemaDiagram
