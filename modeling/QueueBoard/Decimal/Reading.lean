/-!
# Reading decimals

Digits with an optional fraction and exponent, read into the nearest float. The grammar is that of
numbers typed on a command line: a sign, digits around an optional point, an exponent, or one of the
names for infinity and the non-number in any case.
-/

namespace QueueBoard.Decimal

/-- The value of a run of digits, appended to `n`. -/
def digitsOnto (n : Nat) (digits : List Char) : Nat :=
  digits.foldl (fun acc c => acc * 10 + (c.toNat - '0'.toNat)) n

/-- The float nearest to `mantissa · 10 ^ exponent`. Exponents far outside the range of floats are
cut short: they only decide between zero and infinity. -/
def nearest (mantissa : Nat) (exponent : Int) : Float :=
  if mantissa == 0 then 0
  else
    let length := (Nat.toDigits 10 mantissa).length
    let power := exponent + (length : Nat)
    if 400 < power then 1 / 0
    else if power < -400 then 0
    else Float.ofScientific mantissa (exponent < 0) exponent.natAbs

/-- `x`, or its negation. -/
def signed (negative : Bool) (x : Float) : Float := if negative then -x else x

/-- An optional sign and what follows it. -/
def takeSign : List Char → Bool × List Char
  | '-' :: rest => (true, rest)
  | '+' :: rest => (false, rest)
  | rest => (false, rest)

/-- An exponent after its `e`: an optional sign and at least one digit, nothing else. -/
def readExponent (text : List Char) : Option Int :=
  let (negative, digits) := takeSign text
  if digits.isEmpty || !digits.all Char.isDigit then none
  else
    -- more digits than this cannot change the float
    let n := digitsOnto 0 ((digits.dropWhile (· == '0')).take 9)
    some (if negative then -(n : Int) else (n : Int))

/-- Digits with an optional point among or around them, and an optional exponent. -/
def readUnsigned (text : List Char) : Option Float :=
  let whole := text.takeWhile Char.isDigit
  let rest := text.dropWhile Char.isDigit
  let (fraction, rest) :=
    match rest with
    | '.' :: after => (after.takeWhile Char.isDigit, after.dropWhile Char.isDigit)
    | _ => ([], rest)
  if whole.isEmpty && fraction.isEmpty then none
  else
    let mantissa := digitsOnto 0 (whole ++ fraction)
    let shift : Int := -(fraction.length : Int)
    match rest with
    | [] => some (nearest mantissa shift)
    | 'e' :: after | 'E' :: after => (readExponent after).map fun e => nearest mantissa (e + shift)
    | _ => none

/-- A float in free text. -/
def readFloat (text : String) : Option Float :=
  let (negative, rest) := takeSign text.toList
  let name := String.ofList (rest.map Char.toLower)
  if name == "inf" || name == "infinity" then some (signed negative (1 / 0))
  else if name == "nan" then some (signed negative (0 / 0))
  else (readUnsigned rest).map (signed negative)

end QueueBoard.Decimal
