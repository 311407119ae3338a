import Mathlib.Tactic.Ring
import QueueBoard.Proofs.Scalar.Finite
import QueueBoard.Scalar.Float
/-!
# Whole numbers as floats

Whole numbers of at most 53 bits are floats, and floats count with them as integers do: products and
differences that stay that small are not rounded (`Counts.mul`, `Counts.sub`). Two different ones are further
apart than the gap between one and the next float (`epsilon_lt_abs_sub_iff`).
-/

namespace QueueBoard.Floating

open Float.Model (Format totalExponent UnpackedFloat)
open Float.Model.UnpackedFloat

/-! ## The form of a whole number -/

theorem scaled_pos {n : Nat} (h : 0 < n) (k : Nat) : 0 < n * 2 ^ k := Nat.mul_pos h (Nat.two_pow_pos k)

/-- A whole number with a sign, its mantissa brought to 53 bits. -/
def whole (s : Sign) (n : Nat) : UnpackedFloat :=
  if h : 0 < n then .finite s (n * 2 ^ (52 - n.log2)) (n.log2 - 52) (scaled_pos h _) else .zero s

theorem whole_zero (s : Sign) : whole s 0 = .zero s := rfl

theorem whole_of_pos (s : Sign) {n : Nat} (h : 0 < n) :
    whole s n = .finite s (n * 2 ^ (52 - n.log2)) (n.log2 - 52) (scaled_pos h _) := dif_pos h

theorem neg_whole (s : Sign) (n : Nat) : (whole s n).neg = whole (-s) n := by
  rcases Nat.eq_zero_or_pos n with rfl | h
  · rfl
  · rw [whole_of_pos s h, whole_of_pos (-s) h]
    rfl

theorem log2_le {n : Nat} (h : n < 2 ^ 53) : n.log2 ≤ 52 :=
  Nat.le_of_lt_succ (log2_lt_of_lt h (by omega))

theorem log2_scaled {n : Nat} (h : 0 < n) (k : Nat) : (n * 2 ^ k).log2 = n.log2 + k := by
  rw [Nat.log2_eq_iff (scaled_pos h k).ne', show n.log2 + k + 1 = n.log2 + 1 + k by omega, pow_add, pow_add]
  exact ⟨Nat.mul_le_mul_right _ (Nat.log2_self_le h.ne'),
    Nat.mul_lt_mul_of_pos_right Nat.lt_log2_self (Nat.two_pow_pos k)⟩

/-! ## Rounding -/

theorem targetExponent_total (m : Nat) (e : Int) :
    Format.binary64.targetExponent (totalExponent m e) = Max.max ((m.log2 : Int) + e - 52) (-1074) := by
  rw [targetExponent_binary64, totalExponent]
  omega

/-- Shifting out zeros loses nothing. -/
theorem shiftRight_scaled (m k : Nat) :
    (ExtendedMantissa.ofMantissaAndAccuracy (m * 2 ^ k) .exact >>> k) =
      ExtendedMantissa.ofMantissaAndAccuracy m .exact := by
  induction k generalizing m with
  | zero => rw [pow_zero, mul_one]; rfl
  | succ k ih =>
    show ExtendedMantissa.shiftRightOne (ExtendedMantissa.ofMantissaAndAccuracy (m * 2 ^ (k + 1)) .exact >>> k) = _
    rw [show m * 2 ^ (k + 1) = m * 2 * 2 ^ k by rw [pow_succ]; ring, ih]
    simp [ExtendedMantissa.shiftRightOne, ExtendedMantissa.ofMantissaAndAccuracy]

/-- A mantissa of 53 bits with zeros behind is brought back to 53 bits. -/
theorem shiftToTargetExponent_scaled {m : Nat} (hm : m.log2 = 52) (h : 0 < m) (k : Nat) {e : Int}
    (he : -1074 ≤ e) : shiftToTargetExponent Format.binary64 (m * 2 ^ k) (e - k) .exact =
      (ExtendedMantissa.ofMantissaAndAccuracy m .exact, e) := by
  have htarget : Format.binary64.targetExponent (totalExponent (m * 2 ^ k) (e - k)) = e := by
    rw [targetExponent_total, log2_scaled h, hm]
    omega
  have hshift : (e - (e - k)).toNat = k := by omega
  rw [shiftToTargetExponent, htarget, shiftToExponent, hshift, shiftRight_scaled]
  simp

theorem roundWithAccuracy_scaled {m : Nat} (hm : m.log2 = 52) (h : 0 < m) (s : Sign) (k : Nat) {e : Int}
    (he : -1074 ≤ e) :
    roundWithAccuracy Format.binary64 s (m * 2 ^ k) (e - k) .exact = .finite s m e h := by
  have hagain : shiftToTargetExponent Format.binary64 m e .exact =
      (ExtendedMantissa.ofMantissaAndAccuracy m .exact, e) := by
    simpa using shiftToTargetExponent_scaled hm h 0 he
  have hrounded : (ExtendedMantissa.ofMantissaAndAccuracy m .exact).roundedMantissa = m := rfl
  rw [roundWithAccuracy, shiftToTargetExponent_scaled hm h k he]
  dsimp only
  rw [hrounded, hagain]
  exact dif_neg h.ne'

variable {n m : Nat}

/-- A whole number written with enough zeros behind the point is not rounded. -/
theorem roundWithAccuracy_whole (hn : 0 < n) (hsmall : n < 2 ^ 53) (s : Sign) {k : Nat}
    (hk : 52 ≤ n.log2 + k) : roundWithAccuracy Format.binary64 s (n * 2 ^ k) (-k) .exact = whole s n := by
  have hlog := log2_le hsmall
  obtain ⟨j, hj⟩ : ∃ j, k = (52 - n.log2) + j := ⟨k - (52 - n.log2), by omega⟩
  have hmantissa : n * 2 ^ k = n * 2 ^ (52 - n.log2) * 2 ^ j := by rw [hj, pow_add, mul_assoc]
  have hexponent : -(k : Int) = (n.log2 - 52) - j := by omega
  rw [hmantissa, hexponent, whole_of_pos s hn]
  exact roundWithAccuracy_scaled (by rw [log2_scaled hn]; omega) _ s j (by omega)

theorem round_whole (hn : 0 < n) (hsmall : n < 2 ^ 53) (s : Sign) (k : Nat) :
    Float.Model.UnpackedFloat.round Format.binary64 s (n * 2 ^ k) (-k) = whole s n := by
  have hlog := log2_le hsmall
  have htarget : Format.binary64.targetExponent (totalExponent (n * 2 ^ k) (-k)) = n.log2 - 52 := by
    rw [targetExponent_total, log2_scaled hn]
    omega
  obtain ⟨j, hj⟩ : ∃ j, (-(k : Int) - (n.log2 - 52)).toNat = j := ⟨_, rfl⟩
  have hmantissa : (n * 2 ^ k) <<< j = n * 2 ^ (k + j) := by rw [Nat.shiftLeft_eq, pow_add, mul_assoc]
  have hexponent : -(k : Int) - j = -((k + j : Nat) : Int) := by omega
  rw [Float.Model.UnpackedFloat.round, htarget, decreaseExponent, hj]
  dsimp only
  rw [hmantissa, hexponent]
  exact roundWithAccuracy_whole hn hsmall s (by omega)

/-- The difference of two whole numbers, with its sign. -/
def difference (n m : Nat) : UnpackedFloat :=
  if n < m then whole .negative (m - n) else whole .positive (n - m)

/-- The difference of two whole numbers with zeros behind the point is not rounded. -/
theorem normalize_difference (hn : n < 2 ^ 53) (hm : m < 2 ^ 53) (k : Nat) :
    UnpackedFloat.normalize Format.binary64 ((n * 2 ^ k : Nat) - (m * 2 ^ k : Nat)) (-k) .positive =
      difference n m := by
  have hpow : 0 < 2 ^ k := Nat.two_pow_pos k
  rcases lt_trichotomy n m with hlt | rfl | hlt
  · have hscaled : n * 2 ^ k < m * 2 ^ k := Nat.mul_lt_mul_of_pos_right hlt hpow
    have hsign : compare (((n * 2 ^ k : Nat) : Int) - (m * 2 ^ k : Nat)) 0 = .lt := compare_lt_iff_lt.2 (by omega)
    have hmantissa : (-(((n * 2 ^ k : Nat) : Int) - (m * 2 ^ k : Nat))).toNat = (m - n) * 2 ^ k := by
      rw [Nat.sub_mul]
      omega
    rw [UnpackedFloat.normalize, hsign, difference, if_pos hlt, ← round_whole (Nat.sub_pos_of_lt hlt) (by omega) _ k,
      ← hmantissa]
  · rw [sub_self, difference, if_neg (lt_irrefl n), Nat.sub_self]
    rfl
  · have hscaled : m * 2 ^ k < n * 2 ^ k := Nat.mul_lt_mul_of_pos_right hlt hpow
    have hsign : compare (((n * 2 ^ k : Nat) : Int) - (m * 2 ^ k : Nat)) 0 = .gt := compare_gt_iff_gt.2 (by omega)
    have hmantissa : (((n * 2 ^ k : Nat) : Int) - (m * 2 ^ k : Nat)).toNat = (n - m) * 2 ^ k := by
      rw [Nat.sub_mul]
      omega
    rw [UnpackedFloat.normalize, hsign, difference, if_neg (by omega),
      ← round_whole (Nat.sub_pos_of_lt hlt) (by omega) _ k, ← hmantissa]

/-! ## Products and differences -/

theorem ofNat_eq_whole (h : n < 2 ^ 53) : ofNat Format.binary64 n = whole .positive n := by
  have hrounded := normalize_difference h (show 0 < 2 ^ 53 by decide) 0
  rw [difference, if_neg (Nat.not_lt_zero n), Nat.sub_zero] at hrounded
  simpa [ofNat, ofInt] using hrounded

theorem mul_whole (s t : Sign) (h : n * m < 2 ^ 53) :
    mul Format.binary64 (whole s n) (whole t m) = whole (s * t) (n * m) := by
  rcases Nat.eq_zero_or_pos n with rfl | hn
  · rw [zero_mul, whole_zero, whole_zero]
    rcases Nat.eq_zero_or_pos m with rfl | hm
    · rfl
    · rw [whole_of_pos t hm]
      rfl
  rcases Nat.eq_zero_or_pos m with rfl | hm
  · rw [mul_zero, whole_zero, whole_zero, whole_of_pos s hn]
    rfl
  have hnm : 0 < n * m := Nat.mul_pos hn hm
  have hnlog := log2_le ((Nat.le_mul_of_pos_right n hm).trans_lt h)
  have hmlog := log2_le ((Nat.le_mul_of_pos_left m hn).trans_lt h)
  have hlog : n.log2 + m.log2 ≤ (n * m).log2 := by
    rw [Nat.le_log2 hnm.ne', pow_add]
    exact Nat.mul_le_mul (Nat.log2_self_le hn.ne') (Nat.log2_self_le hm.ne')
  have hmantissa : n * 2 ^ (52 - n.log2) * (m * 2 ^ (52 - m.log2)) =
      n * m * 2 ^ (52 - n.log2 + (52 - m.log2)) := by
    rw [pow_add]
    ring
  have hexponent : (n.log2 - 52 : Int) + (m.log2 - 52) = -((52 - n.log2 + (52 - m.log2) : Nat) : Int) := by omega
  rw [whole_of_pos s hn, whole_of_pos t hm, mul_numbers, hmantissa, hexponent]
  exact roundWithAccuracy_whole hnm h _ (by omega)

/-- Two whole numbers brought to one exponent. -/
theorem decreaseExponent_whole (h : n < 2 ^ 53) {k : Nat} (hk : 52 ≤ n.log2 + k) :
    decreaseExponent (n * 2 ^ (52 - n.log2)) (n.log2 - 52) (-k) = (n * 2 ^ k, -(k : Int)) := by
  have hlog := log2_le h
  have hshift : ((n.log2 : Int) - 52 - -(k : Int)).toNat = n.log2 + k - 52 := by omega
  rw [decreaseExponent, hshift, Nat.shiftLeft_eq, mul_assoc, ← pow_add]
  refine Prod.ext ?_ ?_
  · exact congrArg (fun j => n * 2 ^ j) (by omega)
  · dsimp only
    omega

theorem sub_numbers {format : Format} (s t : Sign) {n m : Nat} (e f : Int) (hn : 0 < n) (hm : 0 < m) :
    sub format (.finite s n e hn) (.finite t m f hm) = UnpackedFloat.normalize format
      (s.apply (decreaseExponent n e (min e f)).1 - t.apply (decreaseExponent m f (min e f)).1) (min e f) .positive :=
  rfl

theorem sub_whole (hn : n < 2 ^ 53) (hm : m < 2 ^ 53) :
    sub Format.binary64 (whole .positive n) (whole .positive m) = difference n m := by
  rw [difference]
  rcases Nat.eq_zero_or_pos n with rfl | hnpos
  · rw [whole_zero, Nat.sub_zero, Nat.zero_sub]
    rcases Nat.eq_zero_or_pos m with rfl | hmpos
    · rfl
    · rw [if_pos hmpos, whole_of_pos _ hmpos, whole_of_pos _ hmpos]
      rfl
  rcases Nat.eq_zero_or_pos m with rfl | hmpos
  · rw [if_neg (Nat.not_lt_zero n), whole_zero, Nat.sub_zero, whole_of_pos _ hnpos]
    rfl
  have hnlog := log2_le hn
  have hmlog := log2_le hm
  obtain ⟨k, hk⟩ : ∃ k : Nat, min ((n.log2 : Int) - 52) (m.log2 - 52) = -k :=
    ⟨52 - min n.log2 m.log2, by omega⟩
  rw [whole_of_pos _ hnpos, whole_of_pos _ hmpos, sub_numbers, hk, decreaseExponent_whole hn (by omega),
    decreaseExponent_whole hm (by omega)]
  exact normalize_difference hn hm k

/-! ## Packing -/

theorem unpackSign_packComponents (s : Sign) (e : BitVec Format.binary64.exponentBits)
    (m : BitVec Format.binary64.mantissaBitsWithoutImplicit) :
    unpackSign (packComponents Format.binary64 s e m) = s.toBitVec := by
  refine BitVec.eq_of_getLsbD_eq fun i hi => ?_
  obtain rfl : i = 0 := by omega
  have hlast : (s.toBitVec ++ e ++ m).getLsbD 63 = s.toBitVec[0] := by
    rw [BitVec.getLsbD_append, if_neg (by decide), BitVec.getLsbD_append, if_neg (by decide)]
    rfl
  delta unpackSign
  simp only [packComponents, BitVec.getLsbD_cast, BitVec.getLsbD_extractLsb]
  exact hlast

theorem ofBitVec_toBitVec (s : Sign) : Sign.ofBitVec s.toBitVec = s := by
  cases s <;> rfl

/-- The bit in front of a mantissa that is not written. -/
theorem toNat_implicit {m : Nat} (hm : m.log2 = 52) (h : 0 < m) :
    (1#1 ++ BitVec.ofNat 52 m).toNat = m := by
  obtain ⟨hleast, hgreatest⟩ := (Nat.log2_eq_iff h.ne').1 hm
  rw [BitVec.toNat_append, ← Nat.shiftLeft_add_eq_or_of_lt (BitVec.isLt _), BitVec.toNat_ofNat, BitVec.toNat_ofNat,
    Nat.shiftLeft_eq]
  omega

theorem finite_congr {s t : Sign} {n m : Nat} {e f : Int} {hn : 0 < n} {hm : 0 < m} (hs : s = t) (hnm : n = m)
    (he : e = f) : UnpackedFloat.finite s n e hn = .finite t m f hm := by
  subst hs hnm he
  rfl

/-- Packing keeps a number with a mantissa of 53 bits. -/
theorem unpack_pack_finite {m : Nat} (hm : m.log2 = 52) (h : 0 < m) (s : Sign) {e : Int}
    (hleast : -1074 ≤ e) (hgreatest : e ≤ 971) :
    unpack Format.binary64 (pack Format.binary64 (.finite s m e h)) = .finite s m e h := by
  have hbias : ((Format.binary64.exponentBias : Nat) : Int) = 1023 := rfl
  have hbits : ((Format.binary64.mantissaBitsWithoutImplicit : Nat) : Int) = 52 := rfl
  have hfield : (e + Format.binary64.exponentBias + Format.binary64.mantissaBitsWithoutImplicit).toNat =
      (e + 1075).toNat := by omega
  have hpack : pack Format.binary64 (.finite s m e h) =
      packComponents Format.binary64 s (BitVec.ofNat _ (e + 1075).toNat) (BitVec.ofNat _ m) := by
    delta pack
    dsimp only
    rw [hfield, if_neg (by show ¬ 2 ^ 11 ≤ _; omega), if_pos (by rw [hm]; rfl)]
  have hexponent : (BitVec.ofNat 11 (e + 1075).toNat).toNat = (e + 1075).toNat := by
    rw [BitVec.toNat_ofNat]
    omega
  have hfull : BitVec.ofNat 11 (e + 1075).toNat ≠ -1#11 := fun heq => by
    have htoNat := congrArg BitVec.toNat heq
    rw [hexponent, show (-1#11).toNat = 2047 from rfl] at htoNat
    omega
  have hempty : BitVec.ofNat 11 (e + 1075).toNat ≠ 0#11 := fun heq => by
    have htoNat := congrArg BitVec.toNat heq
    rw [hexponent, show (0#11).toNat = 0 from rfl] at htoNat
    omega
  obtain ⟨b, hb⟩ : ∃ b, packComponents Format.binary64 s (BitVec.ofNat _ (e + 1075).toNat) (BitVec.ofNat _ m) = b :=
    ⟨_, rfl⟩
  have hfieldOf : unpackExponent b = BitVec.ofNat 11 (e + 1075).toNat := by
    rw [← hb, unpackExponent_packComponents]
  obtain ⟨hm', hunpack⟩ := unpack_of_field (hfieldOf ▸ hfull) (hfieldOf ▸ hempty)
  rw [hpack, hb, hunpack]
  refine finite_congr ?_ ?_ ?_
  · rw [← hb, unpackSign_packComponents, ofBitVec_toBitVec]
  · rw [← hb, unpackMantissa_packComponents]
    exact toNat_implicit hm h
  · rw [hfieldOf, hexponent, hbias, hbits]
    omega

theorem unpack_pack_whole (s : Sign) (h : n < 2 ^ 53) :
    unpack Format.binary64 (pack Format.binary64 (whole s n)) = whole s n := by
  have hlog := log2_le h
  rcases Nat.eq_zero_or_pos n with rfl | hn
  · cases s <;> rfl
  · rw [whole_of_pos s hn]
    exact unpack_pack_finite (by rw [log2_scaled hn]; omega) _ s (by omega) (by omega)

/-! ## Floats -/

/-- A float is a whole number with a sign. -/
def Counts (x : Float) (s : Sign) (n : Nat) : Prop := n < 2 ^ 53 ∧ x.toModel.unpack = whole s n

variable {x y : Float} {s t : Sign}

theorem counts_pack (s : Sign) (h : n < 2 ^ 53) : Counts (.ofModel (Float.Model.pack (whole s n))) s n :=
  ⟨h, unpack_pack_whole s h⟩

theorem Counts.neg (h : Counts x s n) : Counts (-x) (-s) n := by
  have hpack := counts_pack (-s) h.1
  rw [← neg_whole, ← h.2] at hpack
  exact hpack

theorem Counts.mul (hx : Counts x s n) (hy : Counts y t m) (h : n * m < 2 ^ 53) :
    Counts (x * y) (s * t) (n * m) := by
  have hpack := counts_pack (s * t) h
  rw [← mul_whole s t h, ← hx.2, ← hy.2] at hpack
  exact hpack

/-- The difference of two whole numbers is one, with the sign that it should have. -/
theorem Counts.sub (hx : Counts x .positive n) (hy : Counts y .positive m) :
    Counts (x - y) (if n < m then .negative else .positive) (if n < m then m - n else n - m) := by
  have hdifference : difference n m =
      whole (if n < m then .negative else .positive) (if n < m then m - n else n - m) := by
    rw [difference]
    split <;> rfl
  have hpack := counts_pack (if n < m then .negative else .positive)
    (show (if n < m then m - n else n - m) < 2 ^ 53 by have := hx.1; have := hy.1; split <;> omega)
  rw [← hdifference, ← sub_whole hx.1 hy.1, ← hx.2, ← hy.2] at hpack
  exact hpack

theorem counts_ofNat (h : n < 2 ^ 53) : Counts (Float.ofNat n) .positive n := by
  have hone : Counts (Float.ofBits 0x3FF0000000000000) .positive 1 := ⟨by decide, rfl⟩
  have hwhole : Counts n.toUInt64.toFloat .positive n := by
    have hn : n.toUInt64.toNat = n := UInt64.toNat_ofNat_of_lt' (by show n < 2 ^ 64; omega)
    have hpack := counts_pack .positive h
    rw [← ofNat_eq_whole h] at hpack
    have hmodel : n.toUInt64.toFloat = .ofModel (Float.Model.pack (ofNat Format.binary64 n.toUInt64.toNat)) := rfl
    rw [hmodel, hn]
    exact hpack
  show Counts (Float.ofScientific n false 0) .positive n
  rw [Float.ofScientific, dif_pos ⟨h, by decide⟩]
  have hproduct := hwhole.mul hone (by rwa [mul_one])
  rw [mul_one] at hproduct
  exact hproduct

/-! ## Distances -/

theorem lt_iff (x y : Float) : x < y ↔ x.toModel.unpack.lt y.toModel.unpack = true :=
  decide_eq_true_iff (p := x.toModel < y.toModel)

theorem counts_zero : Counts (Scalar.ofNat 0 : Float) .positive 0 := counts_ofNat (by decide)

theorem Counts.neg_iff (h : Counts x s n) : x < (Scalar.ofNat 0 : Float) ↔ s = .negative ∧ 0 < n := by
  rw [lt_iff, counts_zero.2, h.2]
  rcases Nat.eq_zero_or_pos n with rfl | hn
  · refine iff_of_false ?_ fun hlt => lt_irrefl 0 hlt.2
    rintro ⟨⟩
  · rw [whole_of_pos s hn]
    cases s with
    | negative => exact iff_of_true rfl ⟨rfl, hn⟩
    | positive => exact iff_of_false (by rintro ⟨⟩) (by rintro ⟨⟨⟩, -⟩)

/-- The distance of a whole number from zero. -/
theorem Counts.abs (h : Counts x s n) : ∃ t, Counts (Scalar.abs x) t n ∧ (0 < n → t = .positive) := by
  rw [Scalar.abs]
  split
  · rename_i hneg
    obtain ⟨rfl, hn⟩ := h.neg_iff.1 hneg
    exact ⟨_, h.neg, fun _ => rfl⟩
  · rename_i hneg
    refine ⟨s, h, fun hn => ?_⟩
    cases s with
    | negative => exact absurd (h.neg_iff.2 ⟨rfl, hn⟩) hneg
    | positive => rfl

/-- The gap between one and the next float, unpacked. -/
theorem unpack_epsilon :
    (Scalar.epsilon : Float).toModel.unpack = .finite .positive (2 ^ 52) (-104) (Nat.two_pow_pos 52) := by
  have hone : Counts (Scalar.ofNat 1 : Float) .positive 1 := counts_ofNat (by decide)
  have hpow : Counts (Scalar.ofNat (Nat.pow 2 52) : Float) .positive (2 ^ 52) := counts_ofNat (by decide)
  have hquotient : div Format.binary64 (whole .positive 1) (whole .positive (2 ^ 52)) =
      .finite .positive (2 ^ 52) (-104) (Nat.two_pow_pos 52) := rfl
  show unpack Format.binary64 (pack Format.binary64 (div Format.binary64
    (Scalar.ofNat 1 : Float).toModel.unpack (Scalar.ofNat (Nat.pow 2 52) : Float).toModel.unpack)) = _
  rw [hone.2, hpow.2, hquotient]
  exact unpack_pack_finite (by decide) _ _ (by omega) (by omega)

/-- A whole number is greater than the gap unless it is zero or negative. -/
theorem Counts.epsilon_lt_iff (h : Counts x s n) : Scalar.epsilon < x ↔ s = .positive ∧ 0 < n := by
  have hlt : (Scalar.epsilon : Float) < x ↔
      (UnpackedFloat.finite .positive (2 ^ 52) (-104) (Nat.two_pow_pos 52)).lt (whole s n) = true := by
    rw [← unpack_epsilon, ← h.2]
    exact lt_iff _ _
  rw [hlt]
  rcases Nat.eq_zero_or_pos n with rfl | hn
  · refine iff_of_false ?_ fun hlt => lt_irrefl 0 hlt.2
    rintro ⟨⟩
  · rw [whole_of_pos s hn]
    cases s with
    | negative => exact iff_of_false (by rintro ⟨⟩) (by rintro ⟨⟨⟩, -⟩)
    | positive =>
      have hexponent : compare (-104 : Int) (n.log2 - 52) = .lt := compare_lt_iff_lt.2 (by omega)
      refine iff_of_true ?_ ⟨rfl, hn⟩
      show (some ((compare (-104 : Int) (n.log2 - 52)).then _) == some Ordering.lt) = true
      rw [hexponent]
      rfl

/-- **Two whole numbers are further apart than the gap iff they differ.** -/
theorem epsilon_lt_abs_sub_iff (hx : Counts x .positive n) (hy : Counts y .positive m) :
    Scalar.epsilon < Scalar.abs (x - y) ↔ n ≠ m := by
  obtain ⟨t, habs, hpositive⟩ := (hx.sub hy).abs
  have hdistance : 0 < (if n < m then m - n else n - m) ↔ n ≠ m := by split <;> omega
  rw [habs.epsilon_lt_iff, ← hdistance]
  exact ⟨fun h => h.2, fun h => ⟨hpositive h, h⟩⟩

end QueueBoard.Floating
