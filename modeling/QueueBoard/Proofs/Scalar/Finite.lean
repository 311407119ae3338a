import Mathlib.Algebra.Order.Group.Nat
/-!
# Finite floats

Whole numbers of 64 bits are far inside the range of floats, so the nearest float to one is finite
(`isFinite_ofNat`), and so is the negation of a finite float (`isFinite_neg`).
-/

namespace QueueBoard.Floating

open Float.Model (Format)
open Float.Model.UnpackedFloat

/-! ## Ranges -/

/-- A zero, or a number whose last bit weighs at most `2 ^ k`. -/
inductive Weighs (k : Int) : Float.Model.UnpackedFloat → Prop
  | zero (s : Sign) : Weighs k (.zero s)
  | finite {s : Sign} {m : Nat} {e : Int} {hm : 0 < m} : e ≤ k → Weighs k (.finite s m e hm)

theorem Weighs.isFinite {k : Int} {u : Float.Model.UnpackedFloat} (h : Weighs k u) : u.isFinite = true := by
  cases h <;> rfl

theorem Weighs.neg {k : Int} {u : Float.Model.UnpackedFloat} (h : Weighs k u) : Weighs k u.neg := by
  cases h with
  | zero s => exact .zero _
  | finite he => exact .finite he

/-! ## Packing -/

section Packing

variable {b : BitVec Format.binary64.numBits} {k : Int}

/-- The exponent field of a finite float is not full. -/
theorem exponent_lt_of_isFinite (h : (unpack Format.binary64 b).isFinite = true) :
    (unpackExponent b).toNat < 2047 := by
  have hlt : (unpackExponent b).toNat < 2 ^ 11 := (unpackExponent b).isLt
  have hne : (unpackExponent b).toNat ≠ 2047 := by
    intro hfull
    have hones : unpackExponent b = -1#_ := BitVec.eq_of_toNat_eq hfull
    delta unpack at h
    rw [if_pos hones] at h
    split at h <;> cases h
  omega

/-- A field that is neither full nor empty is that of a number whose leading bit is not written. -/
theorem unpack_of_field (hfull : unpackExponent b ≠ -1#_) (hempty : unpackExponent b ≠ 0#_) :
    ∃ hm, unpack Format.binary64 b = .finite (Sign.ofBitVec (unpackSign b)) (1#1 ++ unpackMantissa b).toNat
      ((unpackExponent b).toNat - (Format.binary64.exponentBias + Format.binary64.mantissaBitsWithoutImplicit : Int))
      hm := by
  delta unpack
  rw [if_neg hfull, if_neg hempty]
  exact ⟨_, rfl⟩

theorem weighs_unpack (hfield : (unpackExponent b).toNat < 2047)
    (hk : ((unpackExponent b).toNat : Int) ≤ k + 1075) (hleast : -1074 ≤ k) :
    Weighs k (unpack Format.binary64 b) := by
  have hbias : ((Format.binary64.exponentBias : Nat) : Int) = 1023 := rfl
  have hbits : ((Format.binary64.mantissaBitsWithoutImplicit : Nat) : Int) = 52 := rfl
  have hfull : unpackExponent b ≠ -1#_ := by
    intro h
    rw [h] at hfield
    exact absurd hfield (by decide)
  by_cases hempty : unpackExponent b = 0#_
  · delta unpack
    rw [if_neg hfull, if_pos hempty]
    by_cases hmantissa : unpackMantissa b = 0#_
    · rw [dif_pos hmantissa]
      exact .zero _
    · rw [dif_neg hmantissa]
      refine .finite ?_
      rw [hempty]
      show ((0#11).toNat : Int) - _ + 1 ≤ k
      simp only [hbias, hbits, BitVec.toNat_ofNat]
      omega
  · obtain ⟨_, hunpack⟩ := unpack_of_field hfull hempty
    rw [hunpack]
    exact .finite (by omega)

/-- Packing keeps what is in range. -/
theorem weighs_unpack_pack {u : Float.Model.UnpackedFloat} (h : Weighs k u) (hleast : -1074 ≤ k)
    (hgreatest : k ≤ 971) : Weighs k (unpack Format.binary64 (pack Format.binary64 u)) := by
  have hbias : ((Format.binary64.exponentBias : Nat) : Int) = 1023 := rfl
  have hbits : ((Format.binary64.mantissaBitsWithoutImplicit : Nat) : Int) = 52 := rfl
  cases h with
  | zero s =>
    have hfield : (unpackExponent (pack Format.binary64 (.zero s))).toNat = 0 := by
      show (unpackExponent (packComponents Format.binary64 s _ _)).toNat = 0
      rw [unpackExponent_packComponents]
      rfl
    exact weighs_unpack (by omega) (by omega) hleast
  | @finite s m e hm he =>
    have hfield : (unpackExponent (pack Format.binary64 (.finite s m e hm))).toNat ≤ (e + 1075).toNat := by
      delta pack
      dsimp only
      rw [if_neg (by simp only [hbias, hbits]; omega)]
      split
      · rw [unpackExponent_packComponents, BitVec.toNat_ofNat]
        refine (Nat.mod_le _ _).trans ?_
        omega
      · rw [unpackExponent_packComponents]
        exact Nat.zero_le _
    exact weighs_unpack (by omega) (by omega) hleast

end Packing

/-! ## Rounding -/

theorem targetExponent_binary64 (t : Int) : Format.binary64.targetExponent t = max (t - 53) (-1074) := by
  rw [Format.targetExponent]
  rfl

theorem shiftRight_mantissa_le (em : ExtendedMantissa) (n : Nat) : (em >>> n).mantissa ≤ em.mantissa := by
  induction n with
  | zero => exact Nat.le_refl _
  | succ n ih =>
    show (ExtendedMantissa.shiftRightOne (em >>> n)).mantissa ≤ em.mantissa
    exact (Nat.div_le_self _ _).trans ih

theorem roundedMantissa_le (em : ExtendedMantissa) : em.roundedMantissa ≤ em.mantissa + 1 := by
  have hround : ∀ a : Accuracy, a.roundToNearestEven em.mantissa ≤ em.mantissa + 1 := by
    intro a
    cases a with
    | exact => exact Nat.le_succ _
    | inexact o => cases o <;> simp only [Accuracy.roundToNearestEven] <;> omega
  exact hround _

theorem log2_lt_of_lt {n k : Nat} (h : n < 2 ^ k) (hk : 0 < k) : n.log2 < k := by
  rcases Nat.eq_zero_or_pos n with rfl | hn
  · rwa [Nat.log2_zero]
  · exact (Nat.log2_lt hn.ne').2 h

/-- The exponent after a shift to the one that the number should have. -/
theorem shiftToTargetExponent_snd (m : Nat) (e : Int) (a : Accuracy) :
    (shiftToTargetExponent Format.binary64 m e a).2 = max e (max (m.log2 + 1 + e - 53) (-1074)) := by
  rw [shiftToTargetExponent, targetExponent_binary64, Float.Model.totalExponent]
  show e + ((max ((m.log2 : Int) + 1 + e - 53) (-1074) - e).toNat : Int) = _
  omega

theorem shiftToTargetExponent_fst_le (m : Nat) (e : Int) :
    (shiftToTargetExponent Format.binary64 m e .exact).1.mantissa ≤ m :=
  shiftRight_mantissa_le ⟨m, false, false⟩ _

/-- Rounding a mantissa of few bits moves the last bit only so far. -/
theorem weighs_roundWithAccuracy {s : Sign} {m : Nat} {e k : Int} (hm : m < 2 ^ 120) (he : e + 140 ≤ k)
    (hk : 0 ≤ k) : Weighs k (roundWithAccuracy Format.binary64 s m e .exact) := by
  obtain ⟨em, e', hshift⟩ : ∃ em e', shiftToTargetExponent Format.binary64 m e .exact = (em, e') :=
    ⟨_, _, rfl⟩
  have hmantissa : em.mantissa ≤ m := by
    have := shiftToTargetExponent_fst_le m e
    rwa [hshift] at this
  have hfirst : e' = max e (max (m.log2 + 1 + e - 53) (-1074)) := by
    rw [← shiftToTargetExponent_snd m e .exact, hshift]
  have hrounded : em.roundedMantissa < 2 ^ 121 := by
    have := roundedMantissa_le em
    omega
  have hm2 : m.log2 < 120 := log2_lt_of_lt hm (by omega)
  have hr2 : em.roundedMantissa.log2 < 121 := log2_lt_of_lt hrounded (by omega)
  have hfinal := shiftToTargetExponent_snd em.roundedMantissa e' .exact
  rw [roundWithAccuracy, hshift]
  dsimp only
  by_cases hzero : (shiftToTargetExponent Format.binary64 em.roundedMantissa e' .exact).1.mantissa = 0
  · rw [dif_pos hzero]
    exact .zero _
  · rw [dif_neg hzero]
    exact .finite (by omega)

/-- A product of numbers is rounded once. -/
theorem mul_numbers {format : Format} (s t : Sign) {m n : Nat} (e f : Int) (hm : 0 < m) (hn : 0 < n) :
    mul format (.finite s m e hm) (.finite t n f hn) = roundWithAccuracy format (s * t) (m * n) (e + f) .exact :=
  rfl

/-! ## Whole numbers and signs -/

theorem isFinite_ofModel_pack {u : Float.Model.UnpackedFloat} {k : Int} (h : Weighs k u) (hk : k ≤ 971)
    (hleast : -1074 ≤ k) : (Float.ofModel (Float.Model.pack u)).isFinite = true :=
  (weighs_unpack_pack h hleast hk).isFinite

/-- The negation of a finite float is finite. -/
theorem isFinite_neg {x : Float} (h : x.isFinite = true) : (-x).isFinite = true := by
  have hweighs : Weighs 971 (Float.Model.unpack x.toModel) := by
    have hfield := exponent_lt_of_isFinite h
    exact weighs_unpack hfield (by omega) (by omega)
  exact isFinite_ofModel_pack hweighs.neg (by omega) (by omega)

theorem mantissa_lt_of_unpack {b : BitVec Format.binary64.numBits} {s : Sign} {m : Nat} {e : Int} {hm : 0 < m}
    (h : unpack Format.binary64 b = .finite s m e hm) : m < 2 ^ 53 := by
  by_cases hfull : unpackExponent b = -1#_
  · delta unpack at h
    rw [if_pos hfull] at h
    by_cases hmantissa : unpackMantissa b = 0#_
    · rw [if_pos hmantissa] at h
      cases h
    · rw [if_neg hmantissa] at h
      cases h
  by_cases hempty : unpackExponent b = 0#_
  · delta unpack at h
    rw [if_neg hfull, if_pos hempty] at h
    by_cases hmantissa : unpackMantissa b = 0#_
    · rw [dif_pos hmantissa] at h
      cases h
    · rw [dif_neg hmantissa] at h
      cases h
      exact (unpackMantissa b).isLt.trans (by decide)
  · obtain ⟨_, hunpack⟩ := unpack_of_field hfull hempty
    rw [hunpack] at h
    cases h
    exact (1#1 ++ unpackMantissa b).isLt

theorem weighs_ofScientific {n : Nat} (h : n < 2 ^ 64) : Weighs 140 (ofScientific Format.binary64 n 0) := by
  have hbits : Format.binary64.mantissaBits = 53 := rfl
  by_cases hzero : n = 0
  · rw [ofScientific, dif_pos hzero]
    exact .zero _
  · have hleast : ¬(0 : Int) < -((2 ^ Format.binary64.exponentBits : Int) + n.log2) := by
      have hpow : (2 ^ Format.binary64.exponentBits : Int) = 2048 := by decide
      omega
    rw [ofScientific, dif_neg hzero, if_neg (by decide), if_neg hleast, if_pos (Int.le_refl 0),
      mul_numbers]
    apply weighs_roundWithAccuracy
    · rw [hbits, Nat.shiftLeft_eq, Int.toNat_zero]
      omega
    · omega
    · omega

theorem weighs_ofNat {n : Nat} (h : n < 2 ^ 53) : Weighs 140 (ofNat Format.binary64 n) := by
  rw [ofNat, ofInt, Float.Model.UnpackedFloat.normalize]
  split
  · rename_i hneg
    have := compare_lt_iff_lt.1 hneg
    omega
  · exact .zero _
  · have hlog : n.log2 < 53 := log2_lt_of_lt h (by omega)
    rw [Float.Model.UnpackedFloat.round, targetExponent_binary64, Float.Model.totalExponent, Int.toNat_natCast,
      decreaseExponent]
    obtain ⟨k, hk⟩ : ∃ k, (0 - max ((n.log2 : Int) + 1 + 0 - 53) (-1074)).toNat = k := ⟨_, rfl⟩
    rw [hk]
    apply weighs_roundWithAccuracy
    · have hpow : 2 ^ k ≤ 2 ^ 53 := Nat.pow_le_pow_right (by omega) (by omega)
      calc n <<< k = n * 2 ^ k := Nat.shiftLeft_eq _ _
        _ ≤ n * 2 ^ 53 := Nat.mul_le_mul_left n hpow
        _ < 2 ^ 120 := by omega
    · omega
    · omega

theorem weighs_mul {a b : Float.Model} {k l : Int} (ha : Weighs k a.unpack) (hb : Weighs l b.unpack)
    (hkl : 0 ≤ k + l + 140) :
    Weighs (k + l + 140) (mul Format.binary64 a.unpack b.unpack) := by
  have hma : ∀ {s m e hm}, a.unpack = .finite s m e hm → m < 2 ^ 53 := mantissa_lt_of_unpack
  have hmb : ∀ {s m e hm}, b.unpack = .finite s m e hm → m < 2 ^ 53 := mantissa_lt_of_unpack
  generalize a.unpack = u at *
  generalize b.unpack = v at *
  cases ha with
  | zero s =>
    cases hb with
    | zero t => exact .zero _
    | finite ht => exact .zero _
  | @finite s m e hm he =>
    cases hb with
    | zero t => exact .zero _
    | @finite t n f hn hf =>
      have hproduct : m * n < 2 ^ 120 := calc
        m * n ≤ 2 ^ 53 * 2 ^ 53 := Nat.mul_le_mul (hma rfl).le (hmb rfl).le
        _ < 2 ^ 120 := by decide
      rw [mul_numbers]
      exact weighs_roundWithAccuracy hproduct (by omega) hkl

/-- A whole number of 64 bits is far inside the range: small ones are written as floats and multiplied by one,
greater ones are rounded. -/
theorem isFinite_ofNat {n : Nat} (h : n < 2 ^ 64) : (Float.ofNat n).isFinite = true := by
  show (Float.ofScientific n false 0).isFinite = true
  rw [Float.ofScientific]
  by_cases hsmall : n < 2 ^ 53 ∧ 0 ≤ 22
  · rw [dif_pos hsmall]
    have hone : Weighs 0 (Float.ofBits 0x3FF0000000000000).toModel.unpack :=
      weighs_unpack_pack (weighs_unpack (by decide) (by decide) (by omega)) (by omega) (by omega)
    have hwhole : Weighs 140 n.toUInt64.toFloat.toModel.unpack := by
      have hn : n.toUInt64.toNat = n := UInt64.toNat_ofNat_of_lt' h
      have hpacked : Weighs 140 (ofNat Format.binary64 n.toUInt64.toNat) := weighs_ofNat (by omega)
      exact weighs_unpack_pack hpacked (by omega) (by omega)
    exact isFinite_ofModel_pack (weighs_mul hwhole hone (by omega)) (by omega) (by omega)
  · rw [dif_neg hsmall]
    exact isFinite_ofModel_pack (weighs_ofScientific h) (by omega) (by omega)

end QueueBoard.Floating
