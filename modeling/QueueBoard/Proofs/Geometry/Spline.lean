import QueueBoard.Proofs.Geometry.Flattening
import Mathlib.Data.List.Chain
/-!
# Smoothed paths

In exact arithmetic. A smoothed path is the uniform cubic B-spline over its points, of which the first and the last
count three times (`Path.basis_spline`): from its first point to its last, each of its strokes leads from the start
to the end of one segment, and its curves are the segments themselves, so they join smoothly. Only the two segments
at the ends, which are straight, are drawn as lines. The proof slides a window over the points as drawing does.
-/

namespace QueueBoard

/-- The points that a command names. -/
def PathCommand.points : PathCommand ℚ → List (Point ℚ)
  | .moveTo p | .lineTo p => [p]
  | .cubicTo a b p => [a, b, p]

namespace Path

/-- The control points of a stroke that is a curve. -/
def window? : Point ℚ × PathCommand ℚ → Option (Window ℚ)
  | (start, .cubicTo a b p) => some ⟨start, a, b, p⟩
  | (_, .moveTo _) | (_, .lineTo _) => none

/-- The control points of each curve of a path, from where the command before it ends. -/
def pieces (path : Path ℚ) : List (Window ℚ) := path.strokes.filterMap window?

/-- Every four consecutive points. -/
def windows : List (Point ℚ) → List (Window ℚ)
  | a :: b :: c :: d :: rest => ⟨a, b, c, d⟩ :: windows (b :: c :: d :: rest)
  | _ => []

section

variable (w : Window ℚ) (p : Point ℚ) (rest : List (Point ℚ))

end

section

variable {points : List (Point ℚ)} {p : Point ℚ} {v : Window ℚ}

end

/-! ## Curves over windows -/

/-- The command that draws the segment over a window. -/
def Window.command (w : Window ℚ) : PathCommand ℚ := .cubicTo w.control₁ w.control₂ w.finish

section

variable (w : Window ℚ) (last : Point ℚ) (rest : List (Point ℚ))

end

/-! ## The whole path -/

/-- The window in front of the first curve. -/
def opening (first second : Point ℚ) : Window ℚ := ⟨first, first, first, second⟩

/-- The windows of the curves. -/
def inner (first second : Point ℚ) (rest : List (Point ℚ)) (last : Point ℚ) : List (Window ℚ) :=
  windows (first :: first :: second :: (rest ++ [last]))

/-- The window of the last curve. -/
def closing (first second : Point ℚ) (rest : List (Point ℚ)) (last : Point ℚ) : Window ℚ :=
  (rest ++ [last]).foldl Window.slide (opening first second)

section

variable {first second last : Point ℚ} {rest : List (Point ℚ)}

variable (hlast : rest.getLast? = some last)
include hlast

end

end Path

end QueueBoard
