import QueueBoard.Decimal.Reading
/-!
# Words that YAML reads as something else

A plain word can mean null, a boolean or a number. A string that is such a word has to be quoted.
-/

namespace QueueBoard.Yaml

/-- Whether a word means null. -/
def meansNull (word : String) : Bool := ["", "null", "Null", "NULL", "~"].contains word

/-- Whether a word means a boolean. -/
def meansBoolean (word : String) : Bool :=
  ["true", "True", "TRUE", "false", "False", "FALSE"].contains word

/-- The value of a digit of either case, up to 36 of them. -/
def digitValue? (c : Char) : Option Nat :=
  if '0' ≤ c ∧ c ≤ '9' then some (c.toNat - '0'.toNat)
  else if 'a' ≤ c ∧ c ≤ 'z' then some (c.toNat - 'a'.toNat + 10)
  else if 'A' ≤ c ∧ c ≤ 'Z' then some (c.toNat - 'A'.toNat + 10)
  else none

/-- The number that a non-empty run of digits of a base writes. -/
def digitsValue? (base : Nat) : List Char → Option Nat
  | [] => none
  | digits => digits.foldlM (fun n c => do
      let d ← digitValue? c
      if d < base then some (base * n + d) else none) 0

/-- Whether digits of a base write a number below a bound. -/
def writesBelow (bound base : Nat) (digits : List Char) : Bool :=
  (digitsValue? base digits).any (· < bound)

/-- Digits with a leading zero: these are text. -/
def hasLeadingZero (word : List Char) : Bool :=
  let (_, digits) := Decimal.takeSign word
  match digits with
  | '0' :: next :: rest => (next :: rest).all Char.isDigit
  | _ => false

/-- Whether a word, its sign taken off, is a whole number below a bound in one of four bases. -/
def isWholeBelow (bound : Nat) : List Char → Bool
  | '0' :: 'x' :: digits => writesBelow bound 16 digits
  | '0' :: 'o' :: digits => writesBelow bound 8 digits
  | '0' :: 'b' :: digits => writesBelow bound 2 digits
  | digits => writesBelow bound 10 digits

/-- Whether a word means a whole number of up to 128 bits. -/
def meansWhole (word : List Char) : Bool :=
  !hasLeadingZero word &&
    match Decimal.takeSign word with
    | (true, rest) => isWholeBelow (Nat.pow 2 127 + 1) rest
    | (false, rest) => isWholeBelow (Nat.pow 2 128) rest

/-- The names of infinity. -/
def infinities : List String := [".inf", ".Inf", ".INF"]

/-- The names of the value that is no number. -/
def notNumbers : List String := [".nan", ".NaN", ".NAN"]

/-- Whether a word means a float. Only finite ones may be written with digits. -/
def meansFloat (word : List Char) : Bool :=
  let (_, rest) := Decimal.takeSign word
  infinities.contains (String.ofList rest) || notNumbers.contains (String.ofList word) ||
    (!hasLeadingZero word && (Decimal.readUnsigned rest).any Float.isFinite)

/-- Whether a plain word would be read as something other than text. -/
def readsOtherwise (word : String) : Bool :=
  meansNull word || meansBoolean word || meansWhole word.toList || meansFloat word.toList ||
    hasLeadingZero word.toList

end QueueBoard.Yaml
