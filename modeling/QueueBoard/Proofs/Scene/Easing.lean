import QueueBoard.Proofs.Scalar.Extended
import QueueBoard.Proofs.Scene.Animation
import Mathlib.Tactic.Ring
/-!
# The eased part of the way

Easing keeps between nothing and the whole (`Transition.progress_mem`) and never goes back
(`Transition.progress_mono`), and is the same with and without infinities, for times are finite
(`Transition.progress_extended`).
-/

namespace QueueBoard

open Extended (finite)

theorem Scalar.clamp_finite (x low high : ℚ) :
    clamp (finite x) (finite low) (finite high) = finite (clamp x low high) := by
  simp only [clamp, Extended.finite_lt]
  split_ifs <;> rfl

theorem easeCubicInOut_extended (x : ℚ) : easeCubicInOut (finite x) = finite (easeCubicInOut x) := by
  simp only [easeCubicInOut, Extended.zero_extended, Extended.one_extended, Extended.numeral_extended,
    Scalar.clamp_finite, Extended.finite_mul, Extended.finite_sub, Extended.finite_add, Extended.finite_le]
  split_ifs <;> exact Extended.finite_div _ (by norm_num)

/-- The curve rises from nothing to the whole; its second half is the first one turned around. -/
theorem easeCubicInOut_mem (x : ℚ) : 0 ≤ easeCubicInOut x ∧ easeCubicInOut x ≤ 1 := by
  obtain ⟨hlow, hhigh⟩ := Scalar.clamp_mem (x := x) (show (0 : ℚ) ≤ 1 by norm_num)
  have hcube : ∀ u : ℚ, 0 ≤ u → u ≤ 1 → 0 ≤ u * u * u ∧ u * u * u ≤ 1 := fun u hu hone =>
    ⟨mul_nonneg (mul_nonneg hu hu) hu, mul_le_one₀ (mul_le_one₀ hone hu hone) hu hone⟩
  obtain ⟨u, hu, htwo, hease⟩ : ∃ u : ℚ, 0 ≤ u ∧ u ≤ 2 ∧ easeCubicInOut x =
      if u ≤ 1 then u * u * u / 2 else ((u - 2) * (u - 2) * (u - 2) + 2) / 2 :=
    ⟨Scalar.clamp x 0 1 * 2, by linarith, by linarith, rfl⟩
  rw [hease]
  split_ifs with hfirst
  · obtain ⟨hnonneg, hone⟩ := hcube u hu hfirst
    constructor <;> linarith
  · obtain ⟨hnonneg, hone⟩ := hcube (2 - u) (by linarith) (by linarith)
    have hturned : (u - 2) * (u - 2) * (u - 2) = -((2 - u) * (2 - u) * (2 - u)) := by ring
    rw [hturned]
    constructor <;> linarith

theorem Scalar.clamp_mono {x y low high : ℚ} (hrange : low ≤ high) (h : x ≤ y) :
    clamp x low high ≤ clamp y low high := by
  unfold clamp
  split_ifs <;> linarith

/-- The two halves of the curve meet in the middle, and each of them rises. -/
theorem easeCubicInOut_mono {x y : ℚ} (h : x ≤ y) : easeCubicInOut x ≤ easeCubicInOut y := by
  have hcube : ∀ u w : ℚ, u ≤ w → u * u * u ≤ w * w * w := fun u w hle => by
    have hpow : u ^ 3 ≤ w ^ 3 := (Odd.strictMono_pow (by decide : Odd 3)).monotone hle
    rwa [pow_three', pow_three'] at hpow
  obtain ⟨u, w, hle, hx, hy⟩ : ∃ u w : ℚ, u ≤ w ∧
      easeCubicInOut x = (if u ≤ 1 then u * u * u / 2 else ((u - 2) * (u - 2) * (u - 2) + 2) / 2) ∧
      easeCubicInOut y = (if w ≤ 1 then w * w * w / 2 else ((w - 2) * (w - 2) * (w - 2) + 2) / 2) :=
    ⟨Scalar.clamp x 0 1 * 2, Scalar.clamp y 0 1 * 2,
      mul_le_mul_of_nonneg_right (Scalar.clamp_mono zero_le_one h) zero_le_two, rfl, rfl⟩
  rw [hx, hy]
  split_ifs with hfirst hfirst'
  · linarith [hcube u w hle]
  · -- the seam: the first half ends at one half, where the second begins
    linarith [hcube u 1 hfirst, hcube (-1) (w - 2) (by linarith)]
  · linarith
  · linarith [hcube (u - 2) (w - 2) (by linarith)]

theorem Duration.seconds_mono {s t : Duration} (h : s.nanos ≤ t.nanos) : (s.seconds : ℚ) ≤ t.seconds := by
  rw [seconds_rat, seconds_rat]
  exact div_le_div_of_nonneg_right (Nat.cast_le.2 h) (by norm_num)

theorem Duration.seconds_extended (d : Duration) : (d.seconds : Extended) = finite d.seconds := by
  have hsecond : ((nanosPerSecond : Nat) : ℚ) ≠ 0 := by norm_num [nanosPerSecond]
  simp only [seconds, Extended.ofNat_extended, Extended.finite_div _ hsecond, Extended.finite_add,
    Scalar.ofNat_rat]

namespace Transition

variable (transition : Transition) (elapsed : Duration)

theorem progress_mem : 0 ≤ (transition.progress elapsed : ℚ) ∧ (transition.progress elapsed : ℚ) ≤ 1 := by
  rw [progress]
  split
  · exact ⟨zero_le_one, le_refl 1⟩
  · exact easeCubicInOut_mem _

theorem progress_of_le (h : transition.duration.nanos ≤ elapsed.nanos) :
    (transition.progress elapsed : ℚ) = 1 := if_pos (Or.inr h)

theorem progress_mono {s t : Duration} (h : s.nanos ≤ t.nanos) :
    (transition.progress s : ℚ) ≤ transition.progress t := by
  by_cases hdone : transition.duration.nanos ≤ t.nanos
  · rw [transition.progress_of_le t hdone]
    exact (transition.progress_mem s).2
  · have hrunning : ∀ u : Duration, u.nanos ≤ t.nanos →
        ¬ (transition.duration.nanos = 0 ∨ transition.duration.nanos ≤ u.nanos) := fun u hu => by omega
    rw [progress, progress, if_neg (hrunning s h), if_neg (hrunning t le_rfl)]
    have hpos : (0 : ℚ) ≤ transition.duration.seconds := by
      rw [Duration.seconds_rat]
      exact div_nonneg (Nat.cast_nonneg _) (by norm_num)
    exact easeCubicInOut_mono (div_le_div_of_nonneg_right (Duration.seconds_mono h) hpos)

theorem progress_extended : (transition.progress elapsed : Extended) = finite (transition.progress elapsed) := by
  rw [progress, progress]
  split
  · rfl
  · rename_i hrunning
    have hpos : (transition.duration.seconds : ℚ) ≠ 0 := by
      rw [Duration.seconds_rat]
      exact div_ne_zero (by exact_mod_cast (not_or.1 hrunning).1) (by norm_num)
    rw [Duration.seconds_extended, Duration.seconds_extended, Extended.finite_div _ hpos, easeCubicInOut_extended]

end Transition

end QueueBoard
