/-!
# The numbers pictures are computed with

Layout, charts, viewports and transitions are written once, over a `Scalar`. The board runs on
64-bit floats; the rationals are an instance too, and there the same definitions obey the laws of an
ordered field, so statements about pictures are statements about exact arithmetic.
-/

namespace QueueBoard

/-- Ordered arithmetic with rounding and texts. Nothing is assumed of it: floats are an instance. -/
class Scalar (α : Type) extends Add α, Sub α, Mul α, Div α, Neg α, LE α, LT α where
  decideLE : (a b : α) → Decidable (a ≤ b)
  decideLT : (a b : α) → Decidable (a < b)
  /-- Numeric equality, which a non-number does not have even with itself. -/
  same : α → α → Bool
  ofNat : Nat → α
  /-- `ofDecimal m k` is `m / 10 ^ k`. -/
  ofDecimal : Nat → Nat → α
  /-- The greater of two; one that is no number is passed over. -/
  max : α → α → α
  floor : α → α
  ceil : α → α
  isFinite : α → Bool
  /-- The whole part of a non-negative number, zero for a negative one. -/
  toNat : α → Nat
  /-- The nearest natural number, a half going up; zero for a negative one. -/
  round : α → Nat
  /-- A number of seconds as whole nanoseconds, a half going to the even one. -/
  nanoseconds : α → Nat
  /-- The least text that reads back. -/
  text : α → String
  /-- The text with a fixed number of decimal places. -/
  fixedText : Nat → α → String
  /-- Whether the vector `(dx, dy)` is shorter than `r`. -/
  shorter : α → α → α → Bool
  /-- Whether the vector `(dx, dy)` is longer than `r`. -/
  longer : α → α → α → Bool
  /-- Whether the vector `(dx, dy)` is at most `r` long. -/
  within : α → α → α → Bool

/-- Angles, measured in radians. -/
class Trig (α : Type) where
  sin : α → α
  cos : α → α
  /-- The angle of the vector `(y, x)` from the second axis, between minus and plus half a turn. -/
  atan2 : α → α → α
  /-- A full turn. -/
  tau : α

namespace Scalar

variable {α : Type} [Scalar α]

instance (priority := low) instDecidableLE : DecidableLE α := Scalar.decideLE

instance (priority := low) instDecidableLT : DecidableLT α := Scalar.decideLT

/-- Numerals are whole numbers of the scalar. -/
instance (priority := low) instOfNat (n : Nat) : OfNat α n := ⟨Scalar.ofNat n⟩

/-- Decimal literals are exact quotients, rounded once. -/
instance (priority := low) instOfScientific : OfScientific α where
  ofScientific m negative e :=
    if negative then Scalar.ofDecimal m e else Scalar.ofNat (m * Nat.pow 10 e)

instance (priority := low) instInhabited : Inhabited α := ⟨Scalar.ofNat 0⟩

/-- The distance of a number from zero. -/
def abs (x : α) : α := if x < 0 then -x else x

/-- `x` brought into `[low, high]`; what is no number stays so. -/
def clamp (x low high : α) : α :=
  if x < low then low else if high < x then high else x

/-- Widths closer than this are the same width: the gap between one and the next float. -/
def epsilon : α := 1 / Scalar.ofNat (Nat.pow 2 52)

/-- Sum from the left, starting at minus zero, the neutral element that keeps the sign of zeros. -/
def sum (xs : List α) : α := xs.foldl (· + ·) (-0)

end Scalar

end QueueBoard
