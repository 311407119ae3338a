import QueueBoard.Decimal.Shortest
/-!
# Ways to write a number

With a fixed number of places a fraction is rounded to the nearest multiple of `10 ^ -places`, a tie
going to the even neighbour, and its digits are written with a point before the last `places`.

Otherwise the digits are the fewest that read back. A `Style` says how they are laid out: where
plain positional writing ends and an exponent begins, whether a whole number keeps a point, and how
the values that are no number are called.
-/

namespace QueueBoard.Decimal

/-! ## Places -/

/-- The natural number nearest to `num / den`; a tie goes to the even one. -/
def roundHalfEven (num den : Nat) : Nat :=
  let q := num / den
  let r := num % den
  if 2 * r < den then q
  else if den < 2 * r then q + 1
  else if q % 2 == 0 then q else q + 1

/-- The natural number nearest to `num / den`; a tie goes up. -/
def roundHalfUp (num den : Nat) : Nat := (2 * num + den) / (2 * den)

/-- A natural number in base ten. -/
def natText (n : Nat) : String := String.ofList (Nat.toDigits 10 n)

/-- Digits of `scaled` with a point before the last `places` digits, zeros filled in on the left. -/
def placed (scaled places : Nat) : String :=
  let digits := Nat.toDigits 10 scaled
  let digits := List.replicate (places + 1 - digits.length) '0' ++ digits
  let split := digits.length - places
  if places == 0 then String.ofList digits
  else String.ofList (digits.take split ++ '.' :: digits.drop split)

/-- The text of `± num / den` with exactly `places` places. -/
def fixedText (negative : Bool) (num den places : Nat) : String :=
  (if negative then "-" else "") ++ placed (roundHalfEven (num * Nat.pow 10 places) den) places

/-! ## Styles -/

/-- A way to write floats. -/
structure Style where
  /-- Least and greatest power of ten of the leading digit that is written positionally;
  `none` writes every number so. -/
  positional : Option (Int × Int)
  /-- A whole number written positionally ends in `.0`. -/
  keepPoint : Bool
  /-- A positive exponent carries a sign. -/
  plusExponent : Bool
  nan : String
  infinity : String

/-- Numbers in labels and messages: never an exponent, no point without a fraction. -/
def Style.plain : Style := ⟨none, false, false, "NaN", "inf"⟩

/-- Numbers in configuration files: never an exponent, always a point. -/
def Style.pointed : Style := ⟨none, true, false, "nan", "inf"⟩

/-- Numbers in JSON; what is no number is null. -/
def Style.json : Style := ⟨some (-5, 15), true, true, "null", "null"⟩

/-- Numbers in YAML. -/
def Style.yaml : Style := ⟨some (-5, 15), true, false, ".nan", ".inf"⟩

/-- The digits with the point where the exponent puts it. -/
def positionalText (keepPoint : Bool) (s : Scientific) : String :=
  if s.exponent < 0 then placed s.digits (-s.exponent).toNat
  else
    let whole := natText s.digits ++ String.ofList (List.replicate s.exponent.toNat '0')
    if keepPoint then whole ++ ".0" else whole

/-- One digit, the others after a point, and the power of ten of the first. -/
def exponentText (plusExponent : Bool) (s : Scientific) : String :=
  let digits := Nat.toDigits 10 s.digits
  let power := s.exponent + (digits.length - 1 : Nat)
  let mantissa :=
    match digits with
    | first :: next :: rest => first :: '.' :: next :: rest
    | short => short
  let sign := if power < 0 then "-" else if plusExponent then "+" else ""
  String.ofList mantissa ++ "e" ++ sign ++ natText power.natAbs

/-- A positive decimal in the given style. -/
def Style.magnitude (style : Style) (s : Scientific) : String :=
  let power := s.exponent + ((Nat.toDigits 10 s.digits).length - 1 : Nat)
  match style.positional with
  | none => positionalText style.keepPoint s
  | some (least, greatest) =>
    if least ≤ power && power ≤ greatest then positionalText style.keepPoint s
    else exponentText style.plusExponent s

/-- The text of a number taken apart. -/
def Style.write (style : Style) : Parts → String
  | .nan => style.nan
  | .infinite negative => (if negative then "-" else "") ++ style.infinity
  | .finite negative mantissa exponent =>
    (if negative then "-" else "") ++
      (if mantissa == 0 then (if style.keepPoint then "0.0" else "0")
       else style.magnitude (shortest mantissa exponent))

/-- The text of a float in the given style. -/
def Style.text (style : Style) (x : Float) : String := style.write (.of x)

/-- The text of a float with exactly `places` places; infinities and the non-number as labels have
them. -/
def fixed (places : Nat) (x : Float) : String :=
  match Parts.of x with
  | .finite negative mantissa exponent =>
    let f := Fraction.ofBinary mantissa exponent
    fixedText negative f.num f.den places
  | other => Style.plain.write other

end QueueBoard.Decimal
