import QueueBoard.Toml
import QueueBoard.Toml.Quoted
import QueueBoard.Decimal.Reading
/-!
# TOML numbers and dates

Words that are no strings: integers in four bases, floats, and dates and times. Underscores may
stand between digits.
-/

namespace QueueBoard.Toml

open Decimal (takeSign)
open Text (hexValue?)

/-- The digits of a run in which single underscores may separate them. -/
def digits? (isDigit : Char → Bool) : List Char → Option (List Char)
  | [] => none
  | [c] => if isDigit c then some [c] else none
  | c :: '_' :: rest => if isDigit c then (digits? isDigit rest).map (c :: ·) else none
  | c :: rest => if isDigit c then (digits? isDigit rest).map (c :: ·) else none

/-- The number that digits of a base write. -/
def natOfDigits (base : Nat) (digits : List Char) : Nat :=
  digits.foldl (fun n d => base * n + (hexValue? d).getD 0) 0

/-- The digits of a whole part: a zero alone, or digits that start with none. -/
def whole? (text : List Char) : Option (List Char) := do
  match ← digits? Char.isDigit text with
  | '0' :: _ :: _ => none
  | digits => some digits

/-- An integer in range. -/
def inRange (n : Int) : Option Int := if fits n then some n else none

/-- An integer: decimal with an optional sign, or without one in another base. -/
def integer? (word : List Char) : Option Int :=
  match word with
  | '0' :: 'x' :: rest =>
    (digits? (fun c => (hexValue? c).isSome) rest).bind fun ds => inRange (natOfDigits 16 ds)
  | '0' :: 'o' :: rest =>
    (digits? (fun c => '0' ≤ c && c ≤ '7') rest).bind fun ds => inRange (natOfDigits 8 ds)
  | '0' :: 'b' :: rest =>
    (digits? (fun c => c == '0' || c == '1') rest).bind fun ds => inRange (natOfDigits 2 ds)
  | _ =>
    let (negative, rest) := takeSign word
    (whole? rest).bind fun ds =>
      let n : Int := natOfDigits 10 ds
      inRange (if negative then -n else n)

/-- The exponent of a float, after its letter. -/
def exponent? (text : List Char) : Option Int := do
  let (negative, rest) := takeSign text
  let n : Int := natOfDigits 10 (← digits? Char.isDigit rest)
  return if negative then -n else n

/-- A float with a fraction, an exponent or both, without its sign. -/
def unsignedFloat? (text : List Char) : Option Float := do
  let isMark := fun c => c == '.' || c == 'e' || c == 'E'
  let whole ← whole? (text.takeWhile (!isMark ·))
  match text.dropWhile (!isMark ·) with
  | '.' :: rest =>
    let fraction ← digits? Char.isDigit (rest.takeWhile (!isMark ·))
    let shift : Int := -(fraction.length : Int)
    let mantissa := natOfDigits 10 (whole ++ fraction)
    match rest.dropWhile (!isMark ·) with
    | [] => return Decimal.nearest mantissa shift
    | '.' :: _ => none
    | _ :: rest => return Decimal.nearest mantissa ((← exponent? rest) + shift)
  | _ :: rest => return Decimal.nearest (natOfDigits 10 whole) (← exponent? rest)
  | [] => none

/-- A float. One too great for a float is refused. -/
def float? (word : List Char) : Option Float :=
  let (negative, rest) := takeSign word
  if rest == ['i', 'n', 'f'] then some (Decimal.signed negative (1 / 0))
  else if rest == ['n', 'a', 'n'] then some (Decimal.signed negative (0 / 0))
  else
    match unsignedFloat? rest with
    | some x =>
      let x := Decimal.signed negative x
      if x == 1 / 0 then none else some x
    | none => none

/-- The number of two digits. -/
def twoDigits? (a b : Char) : Option Nat :=
  if a.isDigit && b.isDigit then some (natOfDigits 10 [a, b]) else none

/-- How many days a month has. -/
def daysIn (year month : Nat) : Nat :=
  if month == 2 then
    if year % 4 == 0 && (year % 100 != 0 || year % 400 == 0) then 29 else 28
  else if month == 4 || month == 6 || month == 9 || month == 11 then 30
  else 31

/-- Whether a text is a date. -/
def isDate : List Char → Bool
  | [y₁, y₂, y₃, y₄, '-', m₁, m₂, '-', d₁, d₂] =>
    match twoDigits? y₁ y₂, twoDigits? y₃ y₄, twoDigits? m₁ m₂, twoDigits? d₁ d₂ with
    | some century, some year, some month, some day =>
      1 ≤ month && month ≤ 12 && 1 ≤ day && day ≤ daysIn (100 * century + year) month
    | _, _, _, _ => false
  | _ => false

/-- What follows the fraction of a second. -/
def afterFraction : List Char → Option (List Char)
  | '.' :: rest =>
    if (rest.takeWhile Char.isDigit).isEmpty then none else some (rest.dropWhile Char.isDigit)
  | text => some text

/-- What follows a time of day. -/
def afterTime : List Char → Option (List Char)
  | h₁ :: h₂ :: ':' :: m₁ :: m₂ :: ':' :: s₁ :: s₂ :: rest => do
    let hour ← twoDigits? h₁ h₂
    let minute ← twoDigits? m₁ m₂
    let second ← twoDigits? s₁ s₂
    if hour ≤ 23 ∧ minute ≤ 59 ∧ second ≤ 60 then afterFraction rest else none
  | _ => none

/-- Whether a text is the offset of a time zone, or nothing. -/
def isOffset : List Char → Bool
  | [] => true
  | ['Z'] | ['z'] => true
  | [sign, h₁, h₂, ':', m₁, m₂] =>
    (sign == '+' || sign == '-') && (twoDigits? h₁ h₂).any (· ≤ 23) &&
      (twoDigits? m₁ m₂).any (· ≤ 59)
  | _ => false

/-- Whether a text is a date, a time, or a date and a time. -/
def isDatetime (text : List Char) : Bool :=
  isDate text || afterTime text == some [] ||
    (isDate (text.take 10) &&
      match text.drop 10 with
      | mark :: rest =>
        (mark == 'T' || mark == 't' || mark == ' ') && (afterTime rest).any isOffset
      | [] => false)

/-- The value of a word. -/
def word? (word : List Char) : Option Toml :=
  if word == ['t', 'r', 'u', 'e'] then some (.boolean true)
  else if word == ['f', 'a', 'l', 's', 'e'] then some (.boolean false)
  else if isDatetime word then some (.datetime (String.ofList word))
  else
    match float? word with
    | some x => some (.float x)
    | none => (integer? word).map .integer

/-- Whether a character may be part of a word. -/
def isWordChar (c : Char) : Bool :=
  c.isAlphanum || c == '+' || c == '-' || c == '_' || c == '.' || c == ':'

/-- The value of the word at the front, and what follows it. A date takes the time after a blank to
itself. -/
def readWord (text : List Char) : Option (Toml × List Char) :=
  let word := text.takeWhile isWordChar
  let rest := text.dropWhile isWordChar
  let joined :=
    match rest with
    | ' ' :: more =>
      if isDate word then
        let time := more.takeWhile isWordChar
        if isDatetime (word ++ ' ' :: time) then some (word ++ ' ' :: time, more.drop time.length)
        else none
      else none
    | _ => none
  match joined with
  | some (both, rest) => some (.datetime (String.ofList both), rest)
  | none => (word? word).map fun v => (v, rest)

end QueueBoard.Toml
