import QueueBoard.Scalar
import QueueBoard.Decimal.Style
/-!
# Floats as scalars

The numbers the board runs on. Lengths are compared after rounding the exact length once, half to
even, so a point at a whole distance is where it looks to be.
-/

namespace QueueBoard

open Decimal

namespace Floating

/-- The greater of two floats; a non-number gives way to the other. -/
def max (a b : Float) : Float :=
  if a.isNaN then b else if b.isNaN then a else if a < b then b else a

/-- The float nearest to `n · 2 ^ exponent`; `sticky` says that a little more was cut off below. -/
def ofScaled (n : Nat) (sticky : Bool) (exponent : Int) : Float :=
  if n == 0 then 0
  else
    let bits := n.log2 + 1
    -- a subnormal result has fewer bits to keep
    let keep : Int := min 53 ((bits : Int) + exponent + 1074)
    if keep < 0 then 0
    else
      let drop := bits - keep.toNat
      let (m, rest) := (n / Nat.pow 2 drop, n % Nat.pow 2 drop)
      let half := if drop == 0 then 0 else Nat.pow 2 (drop - 1)
      let up := drop != 0 && (half < rest || rest == half && (sticky || m % 2 == 1))
      (Float.ofNat (if up then m + 1 else m)).scaleB (exponent + (drop : Int))

/-- The length of a vector, rounded to the nearest float. -/
def length (x y : Float) : Float :=
  match Parts.of x, Parts.of y with
  | .infinite _, _ | _, .infinite _ => 1 / 0
  | .nan, _ | _, .nan => 0 / 0
  | .finite _ a p, .finite _ b q =>
    if a == 0 then y.abs
    else if b == 0 then x.abs
    else if 64 < (p - q).natAbs && 64 < ((p + a.log2) - (q + b.log2) : Int).natAbs then
      max x.abs y.abs
    else
      let e := min p q
      let x := a * Nat.pow 2 (p - e).toNat
      let y := b * Nat.pow 2 (q - e).toNat
      let s := (x * x + y * y) * Nat.pow 2 128
      let root := s.sqrt
      ofScaled root (root * root != s) (e - 64)

/-- The natural number nearest to a float times `scale`, a half going as `rounding` says. -/
def rounded (rounding : Nat → Nat → Nat) (scale : Nat) (x : Float) : Nat :=
  match Parts.of x with
  | .finite false mantissa exponent =>
    let f := Fraction.ofBinary mantissa exponent
    rounding (f.num * scale) f.den
  | .infinite false => Nat.pow 2 64 - 1
  | _ => 0

end Floating

instance : Scalar Float where
  decideLE := inferInstance
  decideLT := inferInstance
  same a b := a == b
  ofNat := Float.ofNat
  ofDecimal m k := Float.ofScientific m true k
  max := Floating.max
  floor := Float.floor
  ceil := Float.ceil
  isFinite := Float.isFinite
  toNat x := x.toUInt64.toNat
  round := Floating.rounded roundHalfUp 1
  nanoseconds := Floating.rounded roundHalfEven 1000000000
  text := Style.plain.text
  fixedText := fixed
  shorter dx dy r := Floating.length dx dy < r
  longer dx dy r := r < Floating.length dx dy
  within dx dy r := Floating.length dx dy ≤ r

instance : Trig Float where
  sin := Float.sin
  cos := Float.cos
  atan2 := Float.atan2
  tau := 6.283185307179586

end QueueBoard
