import QueueBoard.Text.Basic
/-!
# JSON strings

Inside double quotes a string has its quotes, backslashes and control characters escaped. Reading
also takes code points in hexadecimal, of which two halves of a surrogate pair make one character.
-/

namespace QueueBoard.Json

open Text (hexValue? prepend)

/-- Two lower-case hexadecimal digits after `\u00`. -/
def controlEscape (n : Nat) : List Char :=
  ['\\', 'u', '0', '0', Nat.digitChar (n / 16), Nat.digitChar (n % 16)]

/-- A character inside double quotes. -/
def encodeChar (c : Char) : List Char :=
  if c = '"' then ['\\', '"']
  else if c = '\\' then ['\\', '\\']
  else if c = '\n' then ['\\', 'n']
  else if c = '\r' then ['\\', 'r']
  else if c = '\t' then ['\\', 't']
  else if c.toNat = 8 then ['\\', 'b']
  else if c.toNat = 12 then ['\\', 'f']
  else if c.toNat < 32 then controlEscape c.toNat
  else [c]

/-- A string with its quotes. -/
def quote (s : String) : List Char := '"' :: (s.toList.flatMap encodeChar ++ ['"'])

/-- The number that four hexadecimal digits write. -/
def unit? (a b c d : Char) : Option Nat := do
  return (((← hexValue? a) * 16 + (← hexValue? b)) * 16 + (← hexValue? c)) * 16 + (← hexValue? d)

/-- Whether a number is the first half of a surrogate pair. -/
def isHighSurrogate (n : Nat) : Bool := 0xD800 ≤ n && n ≤ 0xDBFF

/-- Whether a number is the second half of a surrogate pair. -/
def isLowSurrogate (n : Nat) : Bool := 0xDC00 ≤ n && n ≤ 0xDFFF

/-- The character of a surrogate pair. -/
def surrogatePair (high low : Nat) : Char :=
  Char.ofNat (0x10000 + (high - 0xD800) * 0x400 + (low - 0xDC00))

/-- The character that a letter means after a backslash. -/
def shortEscape? (c : Char) : Option Char :=
  if c = '"' ∨ c = '\\' ∨ c = '/' then some c
  else if c = 'n' then some '\n'
  else if c = 'r' then some '\r'
  else if c = 't' then some '\t'
  else if c = 'b' then some (Char.ofNat 8)
  else if c = 'f' then some (Char.ofNat 12)
  else none

/-- The characters up to the closing quote, and what follows it. Both halves of a surrogate pair
must be there. -/
def readChars : List Char → Option (List Char × List Char)
  | [] => none
  | '"' :: rest => some ([], rest)
  | '\\' :: 'u' :: a :: b :: c :: d :: rest =>
    match unit? a b c d with
    | none => none
    | some n =>
      if isLowSurrogate n then none
      else if isHighSurrogate n then
        match rest with
        | '\\' :: 'u' :: e :: f :: g :: h :: rest =>
          match unit? e f g h with
          | none => none
          | some low =>
            if isLowSurrogate low then prepend (surrogatePair n low) (readChars rest) else none
        | _ => none
      else prepend (Char.ofNat n) (readChars rest)
  | '\\' :: e :: rest =>
    match shortEscape? e with
    | none => none
    | some c => prepend c (readChars rest)
  | c :: rest => if c = '\\' ∨ c.toNat < 32 then none else prepend c (readChars rest)

/-- The string after an opening quote, and what follows its closing quote. -/
def readQuoted (text : List Char) : Option (String × List Char) :=
  (readChars text).map fun (cs, rest) => (String.ofList cs, rest)

end QueueBoard.Json
