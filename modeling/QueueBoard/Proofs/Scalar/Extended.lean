import QueueBoard.Proofs.Scalar.Rational
/-!
# Rationals with infinities

Exact arithmetic that also has the numbers that are none: widths and values may be infinite or undefined, as
those of the board may be. Finite numbers are calculated with as rationals, without rounding; there is one
zero. What the infinities do is what they do among floats.
-/

namespace QueueBoard

/-- A rational number, an infinity, or no number. -/
inductive Extended where
  | finite (x : ℚ)
  | infinite (negative : Bool)
  | nan
  deriving DecidableEq

namespace Extended

/-- The greatest number that counts are cut at. -/
def largest : Nat := 2 ^ 64 - 1

def add : Extended → Extended → Extended
  | finite x, finite y => finite (x + y)
  | nan, _ | _, nan => nan
  | infinite s, infinite t => if s = t then infinite s else nan
  | infinite s, finite _ | finite _, infinite s => infinite s

def neg : Extended → Extended
  | finite x => finite (-x)
  | infinite s => infinite !s
  | nan => nan

def mul : Extended → Extended → Extended
  | finite x, finite y => finite (x * y)
  | nan, _ | _, nan => nan
  | infinite s, infinite t => infinite (s != t)
  | infinite s, finite x | finite x, infinite s => if x = 0 then nan else infinite (s != decide (x < 0))

/-- The quotient; over zero it is infinite, unless it is that of two zeros. -/
def div : Extended → Extended → Extended
  | finite x, finite y => if y ≠ 0 then finite (x / y) else if x = 0 then nan else infinite (decide (x < 0))
  | nan, _ | _, nan => nan
  | infinite _, infinite _ => nan
  | infinite s, finite y => infinite (s != decide (y < 0))
  | finite _, infinite _ => finite 0

/-- Whether a number is at most another; what is no number is comparable to nothing. -/
def atMost : Extended → Extended → Bool
  | finite x, finite y => x ≤ y
  | nan, _ | _, nan => false
  | infinite s, infinite t => s || !t
  | infinite s, finite _ => s
  | finite _, infinite s => !s

def less : Extended → Extended → Bool
  | finite x, finite y => x < y
  | nan, _ | _, nan => false
  | infinite s, infinite t => s && !t
  | infinite s, finite _ => s
  | finite _, infinite s => !s

def greater : Extended → Extended → Extended
  | nan, b => b
  | a, nan => a
  | a, b => if less a b then b else a

def isFinite : Extended → Bool
  | finite _ => true
  | infinite _ | nan => false

/-- A function of rationals; the infinities are left as they are. -/
def map (f : ℚ → ℚ) : Extended → Extended
  | finite x => finite (f x)
  | infinite s => infinite s
  | nan => nan

/-- A count made from a number; none is negative, and none from what is no number. -/
def count (f : ℚ → Nat) : Extended → Nat
  | finite x => f x
  | infinite false => largest
  | infinite true | nan => 0

/-- The text of a number, those of the infinities given. -/
def spell (f : ℚ → String) : Extended → String
  | finite x => f x
  | infinite s => if s then "-inf" else "inf"
  | nan => "NaN"

/-- The square of a vector's length. -/
def lengthSquare : Extended → Extended → Extended
  | finite x, finite y => finite (x ^ 2 + y ^ 2)
  | infinite _, _ | _, infinite _ => infinite false
  | nan, _ | _, nan => nan

/-- The square of a number, with its sign. -/
def signedSquare : Extended → Extended := map fun x => x * |x|

instance : Scalar Extended where
  add := add
  sub a b := add a (neg b)
  mul := mul
  div := div
  neg := neg
  le a b := atMost a b = true
  lt a b := less a b = true
  decideLE _ _ := inferInstanceAs (Decidable (_ = true))
  decideLT _ _ := inferInstanceAs (Decidable (_ = true))
  same a b := a != nan && a == b
  ofNat n := finite n
  ofDecimal m k := finite (m / 10 ^ k)
  max := greater
  floor := map fun x => x.floor
  ceil := map fun x => x.ceil
  isFinite := isFinite
  toNat := count fun x => min x.floor.toNat largest
  round := count Scalar.round
  nanoseconds := count Scalar.nanoseconds
  text := spell Scalar.text
  fixedText places := spell (Scalar.fixedText places)
  shorter dx dy r := less (lengthSquare dx dy) (signedSquare r)
  longer dx dy r := less (signedSquare r) (lengthSquare dx dy)
  within dx dy r := atMost (lengthSquare dx dy) (signedSquare r)

/-- The angles of the rationals; what is not finite has none. -/
@[reducible] def trig : Trig Extended where
  sin := fun
    | finite x => finite (Trig.rational.sin x)
    | _ => nan
  cos := fun
    | finite x => finite (Trig.rational.cos x)
    | _ => nan
  atan2
    | finite y, finite x => finite (Trig.rational.atan2 y x)
    | _, _ => nan
  tau := finite Trig.rational.tau

/-! ## Finite numbers -/

variable {x y : ℚ}

@[simp] theorem finite_add (x y : ℚ) : finite x + finite y = finite (x + y) := rfl

@[simp] theorem finite_sub (x y : ℚ) : finite x - finite y = finite (x - y) := by
  rw [sub_eq_add_neg]
  rfl

@[simp] theorem finite_mul (x y : ℚ) : finite x * finite y = finite (x * y) := rfl

@[simp] theorem finite_div (x : ℚ) (h : y ≠ 0) : finite x / finite y = finite (x / y) := if_pos h

@[simp] theorem neg_finite (x : ℚ) : -finite x = finite (-x) := rfl

@[simp] theorem finite_le : finite x ≤ finite y ↔ x ≤ y := decide_eq_true_iff

@[simp] theorem finite_lt : finite x < finite y ↔ x < y := decide_eq_true_iff

@[simp] theorem ofNat_extended (n : Nat) : (Scalar.ofNat n : Extended) = finite n := rfl

@[simp] theorem zero_extended : (0 : Extended) = finite 0 := rfl

@[simp] theorem one_extended : (1 : Extended) = finite 1 := rfl

@[simp] theorem numeral_extended (n : Nat) [n.AtLeastTwo] :
    (OfNat.ofNat n : Extended) = finite (OfNat.ofNat n) := rfl

@[simp] theorem max_finite (x y : ℚ) : Scalar.max (finite x) (finite y) = finite (max x y) := by
  have hmax : Scalar.max (finite x) (finite y) = if less (finite x) (finite y) then finite y else finite x := rfl
  rw [hmax, less]
  by_cases h : x < y
  · rw [if_pos (by simpa using h), max_eq_right h.le]
  · rw [if_neg (by simpa using h), max_eq_left (not_lt.1 h)]

@[simp] theorem floor_finite (x : ℚ) : Scalar.floor (finite x) = finite x.floor := rfl

theorem sum_finite (xs : List ℚ) : Scalar.sum (xs.map finite) = finite xs.sum := by
  have hfrom : ∀ a : ℚ, (xs.map finite).foldl (· + ·) (finite a) = finite (a + xs.sum) := by
    induction xs with
    | nil => simp
    | cons x xs ih => intro a; simp [ih, add_assoc]
  rw [Scalar.sum, zero_extended, neg_finite, neg_zero, hfrom, zero_add]

/-! ## Any numbers -/

/-- The greater of two is not below the second if that is finite, whether or not the first is a number. -/
theorem finite_le_max (a : Extended) (h : x ≤ y) : finite x ≤ Scalar.max a (finite y) := by
  match a with
  | finite a => exact max_finite a y ▸ finite_le.2 (le_max_of_le_right h)
  | infinite false => exact (rfl : atMost (finite x) (infinite false) = true)
  | infinite true | nan => exact finite_le.2 h

theorem finite_add_infinite (x : ℚ) (s : Bool) : finite x + infinite s = infinite s := rfl

theorem finite_le_infinite (x : ℚ) (s : Bool) : finite x ≤ infinite s ↔ s = false := by
  cases s
  · exact iff_of_true rfl rfl
  · exact iff_of_false (fun h => nomatch (h : false = true)) (by decide)

theorem not_finite_le_nan (x : ℚ) : ¬ finite x ≤ nan := fun h => nomatch (h : false = true)

end Extended

end QueueBoard
