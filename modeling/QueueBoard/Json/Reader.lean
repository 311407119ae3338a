import QueueBoard.Json
import QueueBoard.Json.Quoted
import QueueBoard.Decimal.Reading
/-!
# Reading JSON

A reader of the standard grammar. Arrays and objects may be nested 127 deep; a number beyond the
range of floats is refused; of two members with one name the later counts.
-/

namespace QueueBoard.Json

open Text (spanDigits)

/-- What remains after blanks. -/
def skipBlanks : List Char → List Char
  | c :: rest =>
    if c == ' ' || c == '\n' || c == '\t' || c == '\r' then skipBlanks rest else c :: rest
  | [] => []

/-- A member put in its place among sorted ones; one of the same name is replaced. -/
def insertMember (name : String) (value : Json) : List (String × Json) → List (String × Json)
  | [] => [(name, value)]
  | (n, v) :: rest =>
    if name == n then (n, value) :: rest
    else if name < n then (name, value) :: (n, v) :: rest
    else (n, v) :: insertMember name value rest

/-- The members of an object in the order of their names, the last of each name. -/
def sortMembers (members : List (String × Json)) : List (String × Json) :=
  members.foldl (fun sorted (name, value) => insertMember name value sorted) []

/-- The digits of a whole part: a zero alone, or digits that start with none. -/
def readWhole (text : List Char) : Option (List Char × List Char) :=
  match spanDigits text with
  | ([], _) => none
  | ('0' :: _ :: _, _) => none
  | found => some found

/-- The digits after a point, if there is one. -/
def readFraction : List Char → Option (Option (List Char) × List Char)
  | '.' :: rest =>
    match spanDigits rest with
    | ([], _) => none
    | (digits, rest) => some (some digits, rest)
  | text => some (none, text)

/-- The sign and the digits of an exponent, if there is one. -/
def readExponent : List Char → Option (Option (Bool × List Char) × List Char)
  | e :: rest =>
    if e == 'e' || e == 'E' then
      let (negative, rest) :=
        match rest with
        | '+' :: rest => (false, rest)
        | '-' :: rest => (true, rest)
        | rest => (false, rest)
      match spanDigits rest with
      | ([], _) => none
      | (digits, rest) => some (some (negative, digits), rest)
    else some (none, e :: rest)
  | [] => some (none, [])

/-- A whole number, or the nearest float if it has too many digits. Minus zero is a float. -/
def wholeNumber (negative : Bool) (n : Nat) : Option Number :=
  if negative then
    if n = 0 ∨ Nat.pow 2 63 < n then finite (-Decimal.nearest n 0) else some (.negative n)
  else if n < Nat.pow 2 64 then some (.natural n)
  else finite (Decimal.nearest n 0)
where
  finite (x : Float) : Option Number := if x.isFinite then some (.float x) else none

/-- The nearest float to a decimal number, unless it is out of range. -/
def decimalNumber (negative : Bool) (mantissa : Nat) (exponent : Int) : Option Number :=
  let x := Decimal.nearest mantissa exponent
  if x.isFinite then some (.float (if negative then -x else x)) else none

/-- The number at the front, its sign already read. -/
def readNumber (negative : Bool) (text : List Char) : Option (Number × List Char) := do
  let (whole, rest) ← readWhole text
  let (fraction, rest) ← readFraction rest
  let (exponent, rest) ← readExponent rest
  let number ←
    match fraction, exponent with
    | none, none => wholeNumber negative (Decimal.digitsOnto 0 whole)
    | _, _ =>
      let digits := fraction.getD []
      let power : Int :=
        match exponent with
        | none => 0
        | some (true, e) => -(Decimal.digitsOnto 0 e : Int)
        | some (false, e) => Decimal.digitsOnto 0 e
      decimalNumber negative (Decimal.digitsOnto (Decimal.digitsOnto 0 whole) digits)
        (power - digits.length)
  return (number, rest)

/-- Items up to the closing bracket, after the first of which a comma stands before each. -/
def readItems (read : List Char → Option (Json × List Char)) :
    (fuel : Nat) → List Char → Option (List Json × List Char)
  | 0, _ => none
  | fuel + 1, text => do
    let (item, rest) ← read text
    match skipBlanks rest with
    | ']' :: rest => return ([item], rest)
    | ',' :: rest =>
      let (items, rest) ← readItems read fuel rest
      return (item :: items, rest)
    | _ => none

/-- Members up to the closing brace, after the first of which a comma stands before each. -/
def readMembers (read : List Char → Option (Json × List Char)) :
    (fuel : Nat) → List Char → Option (List (String × Json) × List Char)
  | 0, _ => none
  | fuel + 1, text => do
    match skipBlanks text with
    | '"' :: rest =>
      let (name, rest) ← readQuoted rest
      match skipBlanks rest with
      | ':' :: rest =>
        let (value, rest) ← read rest
        match skipBlanks rest with
        | '\x7d' :: rest => return ([(name, value)], rest)
        | ',' :: rest =>
          let (members, rest) ← readMembers read fuel rest
          return ((name, value) :: members, rest)
        | _ => none
      | _ => none
    | _ => none

/-- The value at the front, after blanks, with at most `levels` arrays and objects around its
innermost values and at most `limit` items in each. -/
def readValue (limit : Nat) : (levels : Nat) → List Char → Option (Json × List Char)
  | levels, text =>
    match skipBlanks text with
    | 'n' :: 'u' :: 'l' :: 'l' :: rest => some (.null, rest)
    | 't' :: 'r' :: 'u' :: 'e' :: rest => some (.boolean true, rest)
    | 'f' :: 'a' :: 'l' :: 's' :: 'e' :: rest => some (.boolean false, rest)
    | '"' :: rest => (readQuoted rest).map fun (s, rest) => (.string s, rest)
    | '[' :: rest =>
      match levels with
      | 0 => none
      | levels + 1 =>
        match skipBlanks rest with
        | ']' :: rest => some (.array [], rest)
        | _ =>
          (readItems (readValue limit levels) limit rest).map fun (items, rest) =>
            (.array items, rest)
    | '\x7b' :: rest =>
      match levels with
      | 0 => none
      | levels + 1 =>
        match skipBlanks rest with
        | '\x7d' :: rest => some (.object [], rest)
        | _ =>
          (readMembers (readValue limit levels) limit rest).map fun (members, rest) =>
            (.object (sortMembers members), rest)
    | '-' :: rest => (readNumber true rest).map fun (n, rest) => (.number n, rest)
    | text => (readNumber false text).map fun (n, rest) => (.number n, rest)

/-- How deep values may be nested. -/
def levelLimit : Nat := 127

/-- The value of a text, if it is JSON. No array has more items than the text has characters. -/
def parse (text : String) : Option Json := do
  let chars := text.toList
  let (value, rest) ← readValue chars.length levelLimit chars
  if (skipBlanks rest).isEmpty then some value else none

end QueueBoard.Json
