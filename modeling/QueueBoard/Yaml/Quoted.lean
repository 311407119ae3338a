import QueueBoard.Yaml.Scalar
/-!
# YAML strings

A string is written plain where it can be, in single quotes where a plain one would mean something
else, as a block where it has several lines, and in double quotes where characters have to be
escaped. All forms are lists of lines; the lines after the first are indented by what is around
them.
-/

namespace QueueBoard.Yaml

/-- Whether a character ends a line. -/
def isBreak (c : Char) : Bool :=
  c == '\n' || c == '\r' || c.toNat == 0x85 || c.toNat == 0x2028 || c.toNat == 0x2029

/-- Whether a character is a blank between words. -/
def isSpace (c : Char) : Bool := c == ' ' || c == '\t'

/-- Whether a character may be written as it is. -/
def isPrintable (c : Char) : Bool :=
  let n := c.toNat
  c == '\n' || (0x20 ≤ n && n ≤ 0x7E) ||
    (0xA0 ≤ n && n != 0xFEFF && n != 0xFFFE && n != 0xFFFF)

/-- Whether nothing, a blank or a line break comes next. -/
def endsWord : List Char → Bool
  | [] => true
  | c :: _ => isSpace c || isBreak c

/-- Whether a text begins like something that is no text. -/
def startsAsIndicator : List Char → Bool
  | '-' :: '-' :: '-' :: _ => true
  | '.' :: '.' :: '.' :: _ => true
  | c :: rest =>
    "#,[]\x7b\x7d&*!|>'\"%@`".toList.contains c ||
      ((c == '?' || c == ':' || c == '-') && endsWord rest)
  | [] => false

/-- Whether a colon or a number sign inside a text would end it; `spaced` tells of a blank before.
-/
def hasIndicator (spaced : Bool) : List Char → Bool
  | [] => false
  | c :: rest =>
    (c == ':' && endsWord rest) || (c == '#' && spaced) ||
      hasIndicator (isSpace c || isBreak c) rest

/-- Whether two neighbouring characters are a space before a line break. -/
def spaceThenBreak : List Char → Bool
  | c :: d :: rest => (c == ' ' && isBreak d) || spaceThenBreak (d :: rest)
  | _ => false

/-- Whether two neighbouring characters are a line break before a space. -/
def breakThenSpace : List Char → Bool
  | c :: d :: rest => (isBreak c && d == ' ') || breakThenSpace (d :: rest)
  | _ => false

/-- Whether a text has to be escaped. -/
def needsEscapes (text : List Char) : Bool :=
  text.any (fun c => !isPrintable c) || spaceThenBreak text

/-- Whether a text may be written plain. -/
def allowsPlain (text : List Char) : Bool :=
  !(needsEscapes text || text.any isBreak || startsAsIndicator text ||
    hasIndicator false (text.drop 1) ||
    text.head? == some ' ' || text.getLast? == some ' ')

/-- Upper-case hexadecimal digits, filled up with zeros. -/
def hexDigits (width n : Nat) : List Char :=
  let digits := (Nat.toDigits 16 n).map Char.toUpper
  List.replicate (width - digits.length) '0' ++ digits

/-- The letter that stands for a character after a backslash. -/
def escapeLetter? (c : Char) : Option Char :=
  [(0, '0'), (7, 'a'), (8, 'b'), (9, 't'), (10, 'n'), (11, 'v'), (12, 'f'), (13, 'r'), (27, 'e'),
    (0x22, '"'), (0x5C, '\\'), (0x85, 'N'), (0x2028, 'L'), (0x2029, 'P')].lookup c.toNat

/-- A character inside double quotes. -/
def escapedChar (c : Char) : List Char :=
  match escapeLetter? c with
  | some letter => ['\\', letter]
  | none =>
    if isPrintable c then [c]
    else if c.toNat ≤ 0xFF then '\\' :: 'x' :: hexDigits 2 c.toNat
    else if c.toNat ≤ 0xFFFF then '\\' :: 'u' :: hexDigits 4 c.toNat
    else '\\' :: 'U' :: hexDigits 8 c.toNat

/-- A text in double quotes. -/
def doubleQuoted (text : List Char) : String :=
  String.ofList ('"' :: text.flatMap escapedChar ++ ['"'])

/-- A text in single quotes, its own ones doubled. -/
def singleQuoted (text : List Char) : String :=
  String.ofList ('\'' :: (text.flatMap fun c => if c == '\'' then ['\'', '\''] else [c]) ++ ['\''])

/-- How a block says what becomes of the line breaks at its end: `-` if there are none, `+` if there
are several. -/
def chomping (text : List Char) : String :=
  match text.reverse with
  | last :: before :: _ => if !isBreak last then "-" else if isBreak before then "+" else ""
  | [last] => if isBreak last then "+" else "-"
  | [] => "-"

/-- The indentation that a block has to name if its first line does not show it. -/
def indentationHint (text : List Char) : String :=
  match text.head? with
  | some c => if c == ' ' || isBreak c then "2" else ""
  | none => ""

/-- The lines of a text; a break at its end begins no further line. -/
def linesOf (text : List Char) : List String :=
  let pieces := (String.ofList text).splitOn "\n"
  if text.getLast? == some '\n' then pieces.dropLast else pieces

/-- A text as a block: a head and the lines as they are. -/
def block (text : List Char) : List String :=
  ("|" ++ indentationHint text ++ chomping text) :: linesOf text

/-- The lines of a string. -/
def stringLines (s : String) : List String :=
  let text := s.toList
  if text.contains '\n' then
    if needsEscapes text || text.getLast? == some ' ' then [doubleQuoted text] else block text
  else if needsEscapes text then [doubleQuoted text]
  else if readsOtherwise s || !allowsPlain text then
    if breakThenSpace text then [doubleQuoted text] else [singleQuoted text]
  else [s]

end QueueBoard.Yaml
