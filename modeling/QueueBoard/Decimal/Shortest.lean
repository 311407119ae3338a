/-!
# The fewest digits that read back

Every text the board writes for a number is computed from a sign, a natural mantissa and a power of
two. They are read off the bit pattern of the float, so that the texts are arithmetic on `Nat`.

A float stands for an interval of reals, those that round to it. Among the decimals in that interval
the ones with the fewest digits are wanted, and of those the nearest to the float itself. All points
are kept as naturals over one denominator, so the search is exact.
-/

namespace QueueBoard.Decimal

/-! ## A float taken apart -/

/-- What a 64-bit float denotes: a signed multiple of a power of two, an infinity, or no number. -/
inductive Parts where
  | nan
  | infinite (negative : Bool)
  | finite (negative : Bool) (mantissa : Nat) (exponent : Int)
  deriving Repr, BEq, DecidableEq

/-- Bits of the fraction field. -/
def fractionBits : Nat := 52

/-- The exponent of the least significant bit of a number whose exponent field is one. -/
def leastExponent : Int := -1074

/-- The parts of a bit pattern. A normal number has its leading one put back. -/
def Parts.ofBits (bits : Nat) : Parts :=
  let negative := bits / Nat.pow 2 63 % 2 == 1
  let field := bits / Nat.pow 2 fractionBits % Nat.pow 2 11
  let fraction := bits % Nat.pow 2 fractionBits
  if field == 2047 then
    if fraction == 0 then .infinite negative else .nan
  else if field == 0 then .finite negative fraction leastExponent
  else .finite negative (Nat.pow 2 fractionBits + fraction) (leastExponent + (field - 1 : Nat))

/-- The parts of a float. -/
def Parts.of (x : Float) : Parts := .ofBits x.toBits.toNat

/-- A magnitude as a fraction: numerator and positive denominator. -/
structure Fraction where
  num : Nat
  den : Nat
  den_pos : 0 < den := by decide

/-- `mantissa · 2 ^ exponent` as a fraction. -/
def Fraction.ofBinary (mantissa : Nat) : Int → Fraction
  | .ofNat e => ⟨mantissa * Nat.pow 2 e, 1, by decide⟩
  | .negSucc e => ⟨mantissa, Nat.pow 2 (e + 1), Nat.two_pow_pos _⟩

/-! ## Digits -/

/-- A positive value inside the interval of reals that round to it: three numerators over `den`.
The ends belong to the interval iff `closed`. -/
structure Window where
  below : Nat
  value : Nat
  above : Nat
  den : Nat
  closed : Bool

/-- A decimal `digits · 10 ^ exponent`. -/
structure Scientific where
  digits : Nat
  exponent : Int
  deriving Repr, BEq, DecidableEq

/-- The window of `mantissa · 2 ^ exponent`. Below a power of two the neighbour is half as far away;
the least exponent has no such gap. -/
def Window.ofBinary (mantissa : Nat) (exponent : Int) : Window :=
  let narrow := mantissa == Nat.pow 2 fractionBits && exponent != leastExponent
  let up : Nat := if exponent < 2 then 1 else Nat.pow 2 (exponent - 2).toNat
  let den : Nat := if exponent < 2 then Nat.pow 2 (2 - exponent).toNat else 1
  { below := (4 * mantissa - (if narrow then 1 else 2)) * up
    value := 4 * mantissa * up
    above := (4 * mantissa + 2) * up
    den := den
    closed := mantissa % 2 == 0 }

/-- The numerator of `k · 10 ^ exponent` over a common denominator, with the window's points
brought to the same denominator: `(point, factor)` such that `point` is over `den · factor`. -/
def onGrid (den : Nat) (k : Nat) (exponent : Int) : Nat × Nat :=
  if exponent < 0 then (k * den, Nat.pow 10 (-exponent).toNat)
  else (k * den * Nat.pow 10 exponent.toNat, 1)

/-- Whether `k · 10 ^ exponent` lies in the window. -/
def Window.holds (w : Window) (k : Nat) (exponent : Int) : Bool :=
  let (point, factor) := onGrid w.den k exponent
  if w.closed then w.below * factor ≤ point && point ≤ w.above * factor
  else w.below * factor < point && point < w.above * factor

/-- The grid point at or below the value. -/
def Window.floorOn (w : Window) (exponent : Int) : Nat :=
  if exponent < 0 then w.value * Nat.pow 10 (-exponent).toNat / w.den
  else w.value / (w.den * Nat.pow 10 exponent.toNat)

/-- Of the value's two neighbours on the grid `10 ^ exponent`, the one in the window, and the nearer
one if both are; a tie goes to the even one. -/
def Window.pick (w : Window) (exponent : Int) : Option Nat :=
  let k := w.floorOn exponent
  match w.holds k exponent && k != 0, w.holds (k + 1) exponent with
  | false, false => none
  | true, false => some k
  | false, true => some (k + 1)
  | true, true =>
    let (low, factor) := onGrid w.den k exponent
    let (high, _) := onGrid w.den (k + 1) exponent
    let value := w.value * factor
    if value - low < high - value then some k
    else if high - value < value - low then some (k + 1)
    else if k % 2 == 0 then some k else some (k + 1)

/-- The exponent of the leading decimal digit, found by counting digits of the integral part of the
value, or of its reciprocal for a value below one. -/
def Window.leading (w : Window) : Int :=
  if w.den ≤ w.value then ((Nat.toDigits 10 (w.value / w.den)).length - 1 : Nat)
  else
    let inverse := (w.den + w.value - 1) / w.value
    let n := (Nat.toDigits 10 inverse).length
    if inverse == Nat.pow 10 (n - 1) then -((n - 1 : Nat) : Int) else -(n : Int)

/-- Grids from coarse to fine, starting at `exponent`. -/
def Window.search (w : Window) : Nat → Int → Scientific
  | 0, exponent => ⟨w.floorOn exponent, exponent⟩
  | fuel + 1, exponent =>
    match w.pick exponent with
    | some k => ⟨k, exponent⟩
    | none => w.search fuel (exponent - 1)

/-- Seventeen digits always suffice, so the search has come to an end by then. -/
def Window.shortest (w : Window) : Scientific := w.search 18 (w.leading + 1)

/-- Drops the zeros at the end of the digits. -/
def Scientific.trimmed : Nat → Scientific → Scientific
  | 0, s => s
  | fuel + 1, s =>
    if s.digits % 10 == 0 && s.digits != 0 then trimmed fuel ⟨s.digits / 10, s.exponent + 1⟩ else s

/-- The shortest decimal of a positive binary number. -/
def shortest (mantissa : Nat) (exponent : Int) : Scientific :=
  ((Window.ofBinary mantissa exponent).shortest).trimmed 400

end QueueBoard.Decimal
