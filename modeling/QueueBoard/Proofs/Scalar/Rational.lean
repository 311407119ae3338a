import QueueBoard.Scalar
import QueueBoard.Decimal.Style
import Mathlib.Algebra.Order.Field.Rat
import Mathlib.Tactic.Linarith
/-!
# Rationals as scalars

The same pictures in exact arithmetic. Nothing is rounded, every number is finite, and lengths are
compared by their squares, so what is proved about places and extents is about the formulas of the
board and not about their rounding.
-/

namespace QueueBoard

instance : Scalar ℚ where
  decideLE := inferInstance
  decideLT := inferInstance
  same x y := x == y
  ofNat n := n
  ofDecimal m k := m / 10 ^ k
  max := max
  floor x := x.floor
  ceil x := x.ceil
  isFinite _ := true
  toNat x := x.floor.toNat
  round x := Decimal.roundHalfUp x.num.toNat x.den
  nanoseconds x := Decimal.roundHalfEven (x.num.toNat * 1000000000) x.den
  text x := if x.den = 1 then toString x.num else toString x.num ++ "/" ++ toString x.den
  fixedText places x := Decimal.fixedText (decide (x < 0)) x.num.natAbs x.den places
  shorter dx dy r := decide (0 < r ∧ dx ^ 2 + dy ^ 2 < r ^ 2)
  longer dx dy r := decide (r < 0 ∨ r ^ 2 < dx ^ 2 + dy ^ 2)
  within dx dy r := decide (0 ≤ r ∧ dx ^ 2 + dy ^ 2 ≤ r ^ 2)

namespace Scalar

@[simp] theorem ofNat_rat (n : Nat) : (Scalar.ofNat n : ℚ) = n := rfl

@[simp] theorem max_rat (x y : ℚ) : Scalar.max x y = Max.max x y := rfl

theorem within_rat {dx dy r : ℚ} : Scalar.within dx dy r = true ↔ 0 ≤ r ∧ dx ^ 2 + dy ^ 2 ≤ r ^ 2 :=
  decide_eq_true_iff

theorem longer_rat {dx dy r : ℚ} : Scalar.longer dx dy r = true ↔ r < 0 ∨ r ^ 2 < dx ^ 2 + dy ^ 2 :=
  decide_eq_true_iff

theorem clamp_mem {x low high : ℚ} (h : low ≤ high) : low ≤ clamp x low high ∧ clamp x low high ≤ high := by
  unfold clamp
  split
  · exact ⟨le_refl low, h⟩
  · split
    · exact ⟨h, le_refl high⟩
    · constructor <;> linarith

end Scalar

/-- Rational angles: a turn is that of the floats, sines follow a parabola in each half turn, and the
angle of a vector is measured by its slope within an eighth of a turn. -/
@[reducible] def Trig.rational : Trig ℚ where
  sin x := halfTurns x
  cos x := halfTurns (x + turn / 4)
  atan2 y x :=
    if x = 0 ∧ y = 0 then 0
    else if |y| ≤ x then turn / 8 * (y / x)
    else if |x| ≤ y then turn / 4 - turn / 8 * (x / y)
    else if |x| ≤ -y then -(turn / 4) - turn / 8 * (x / y)
    else if 0 ≤ y then turn / 2 + turn / 8 * (y / x)
    else turn / 8 * (y / x) - turn / 2
  tau := turn
where
  turn : ℚ := 6283185307179586 / 1000000000000000
  halfTurns (x : ℚ) : ℚ :=
    let part := x / turn - (x / turn).floor
    if part ≤ 1 / 2 then 8 * part * (1 - 2 * part) else -(8 * (part - 1 / 2) * (2 - 2 * part))

end QueueBoard
