import QueueBoard.Geometry.Point
/-!
# Paths

A path is a list of pen commands. `Path.basis` draws the uniform cubic B-spline over control points,
each piece given as a Bézier curve; the first and the last control point count three times, so the
curve starts and ends on them.
-/

namespace QueueBoard

variable {α : Type} [Scalar α]

/-- One movement of the pen. -/
inductive PathCommand (α : Type) where
  | moveTo (finish : Point α)
  | lineTo (finish : Point α)
  | cubicTo (control₁ control₂ finish : Point α)
  deriving Repr, DecidableEq

/-- Where the pen is after the command. -/
def PathCommand.endpoint : PathCommand α → Point α
  | .moveTo p | .lineTo p | .cubicTo _ _ p => p

/-- A drawing by one pen. -/
structure Path (α : Type) where
  commands : List (PathCommand α) := []
  deriving Repr, DecidableEq

namespace Path

instance : Inhabited (Path α) := ⟨{}⟩

/-- Straight segments through every point. -/
def polyline : List (Point α) → Path α
  | [] => {}
  | first :: rest => ⟨.moveTo first :: rest.map .lineTo⟩

/-- Four consecutive control points. -/
structure Window (α : Type) where
  p₀ : Point α
  p₁ : Point α
  p₂ : Point α
  p₃ : Point α

/-- The weighted sum of the window's points. -/
def Window.combine (w : Window α) (a b c d : α) : Point α :=
  ((((⟨0, 0⟩ : Point α).addScaled a w.p₀).addScaled b w.p₁).addScaled c w.p₂).addScaled d w.p₃

/-- The first Bézier control point of the spline piece over the window. -/
def Window.control₁ (w : Window α) : Point α := w.combine 0 (2 / 3) (1 / 3) 0

/-- The second Bézier control point of the spline piece over the window. -/
def Window.control₂ (w : Window α) : Point α := w.combine 0 (1 / 3) (2 / 3) 0

/-- Where the spline piece over the window ends. -/
def Window.finish (w : Window α) : Point α := w.combine 0 (1 / 6) (2 / 3) (1 / 6)

/-- The window one control point further. -/
def Window.slide (w : Window α) (next : Point α) : Window α := ⟨w.p₁, w.p₂, w.p₃, next⟩

/-- One cubic piece per control point still to come. -/
def curves (w : Window α) : List (Point α) → List (PathCommand α)
  | [] => []
  | p :: rest =>
    let w' := w.slide p
    .cubicTo w'.control₁ w'.control₂ w'.finish :: curves w' rest

/-- The smoothed curve over control points; fewer than three are joined by straight segments. -/
def basis : List (Point α) → Path α
  | first :: second :: third :: rest =>
    let interior := third :: rest
    let last := interior.getLastD third
    let w : Window α := ⟨first, first, first, second⟩
    ⟨.moveTo first :: .lineTo w.finish :: (curves w (interior ++ [last]) ++ [.lineTo last])⟩
  | few => polyline few

/-- The text of a command in a path attribute. -/
def commandText : PathCommand α → String
  | .moveTo p => "M" ++ p.text
  | .lineTo p => "L" ++ p.text
  | .cubicTo a b p => "C" ++ a.text ++ "," ++ b.text ++ "," ++ p.text

/-- The path attribute: all commands without anything between them. -/
def text (path : Path α) : String := String.join (path.commands.map commandText)

/-- The point at parameter `t` of the Bézier curve from `start`. -/
def bezier (start a b finish : Point α) (t : α) : Point α :=
  let u := 1 - t
  let (w₀, w₁, w₂, w₃) := (u * u * u, 3 * u * u * t, 3 * u * t * t, t * t * t)
  ⟨w₀ * start.x + w₁ * a.x + w₂ * b.x + w₃ * finish.x,
    w₀ * start.y + w₁ * a.y + w₂ * b.y + w₃ * finish.y⟩

/-- The points `bezier (1 / n)`, `bezier (2 / n)`, … to `bezier (n / n)` of a curve. -/
def curvePoints (n : Nat) (start a b finish : Point α) : List (Point α) :=
  (List.range n).map fun i => bezier start a b finish (Scalar.ofNat (i + 1) / Scalar.ofNat n)

/-- Points along the commands, the pen being at `cursor`. -/
def flattenFrom (steps : Nat) (cursor : Point α) : List (PathCommand α) → List (Point α)
  | [] => []
  | .moveTo p :: rest | .lineTo p :: rest => p :: flattenFrom steps p rest
  | .cubicTo a b p :: rest => curvePoints steps cursor a b p ++ flattenFrom steps p rest

/-- The path as straight segments, each curve cut into `steps` of them, at least one. -/
def flatten (path : Path α) (steps : Nat) : List (Point α) :=
  flattenFrom (max steps 1) ⟨0, 0⟩ path.commands

/-- The end of the first command. -/
def start? (path : Path α) : Option (Point α) := path.commands.head?.map PathCommand.endpoint

/-- The end of the last command. -/
def end? (path : Path α) : Option (Point α) := path.commands.getLast?.map PathCommand.endpoint

end Path

end QueueBoard
