import QueueBoard.Scalar
/-!
# Points and coordinates

Screen coordinates: `x` grows to the right and `y` downwards. A coordinate is written with at most
two decimal places, without zeros at its end and without a minus before zero.
-/

namespace QueueBoard

variable {α : Type} [Scalar α]

/-- A place in the plane. -/
structure Point (α : Type) where
  x : α
  y : α
  deriving Repr, DecidableEq

namespace Point

instance : Inhabited (Point α) := ⟨⟨0, 0⟩⟩

/-- The point moved by `(dx, dy)`. -/
def offset (p : Point α) (dx dy : α) : Point α := ⟨p.x + dx, p.y + dy⟩

/-- The point as far from the origin on both axes as `p`, times `weight`, added to `acc`. -/
def addScaled (acc : Point α) (weight : α) (p : Point α) : Point α :=
  ⟨acc.x + weight * p.x, acc.y + weight * p.y⟩

/-- Numeric equality of both coordinates. -/
def same (p q : Point α) : Bool := Scalar.same p.x q.x && Scalar.same p.y q.y

end Point

namespace Coordinate

/-- Everything before the longest run of `c` at the end. -/
def dropTrailing (c : Char) (text : List Char) : List Char :=
  (text.reverse.dropWhile (· == c)).reverse

/-- A decimal text without the zeros at its end and without a point that nothing follows. -/
def compact (text : List Char) : List Char :=
  let short := dropTrailing '.' (dropTrailing '0' text)
  if short == ['-', '0'] then ['0'] else short

/-- The text of a coordinate in a picture. -/
def text (v : α) : String := String.ofList (compact (Scalar.fixedText 2 v).toList)

end Coordinate

/-- Two coordinates with a comma between them. -/
def Point.text (p : Point α) : String := Coordinate.text p.x ++ "," ++ Coordinate.text p.y

end QueueBoard
