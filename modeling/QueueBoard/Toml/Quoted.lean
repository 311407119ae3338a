import QueueBoard.Text.Basic
/-!
# TOML strings

There are four ways to write a string: basic ones have escapes, literal ones have none, and each may
span lines. Writing chooses the first of them that needs no escape, and escapes only if none does.
-/

namespace QueueBoard.Toml

open Text (hexValue? prepend)

/-- A way to write a string. -/
inductive Quoting where
  | basic
  | literal
  | multilineBasic
  | multilineLiteral
  deriving Repr, BEq, DecidableEq

/-- Whether a character has to be escaped wherever it stands: all controls but tab and line feed. -/
def needsCode (c : Char) : Bool := (c.toNat < 32 && c != '\t' && c != '\n') || c.toNat == 127

/-- The length of the longest run of a character. -/
def longestRun (mark : Char) (text : List Char) : Nat :=
  go 0 0 text
where
  go (longest current : Nat) : List Char → Nat
    | [] => longest
    | c :: rest =>
      if c == mark then go (max longest (current + 1)) (current + 1) rest else go longest 0 rest

/-- The way a string is written. -/
def Quoting.of (text : List Char) : Quoting :=
  let codes := text.any needsCode
  let escapes := codes || text.contains '\\'
  let newline := text.contains '\n'
  let single := longestRun '\'' text
  let double := longestRun '"' text
  if !escapes && double == 0 && !newline then .basic
  else if !codes && single == 0 && !newline then .literal
  else if !escapes && double ≤ 2 then .multilineBasic
  else if !codes && single ≤ 2 then .multilineLiteral
  else if newline then .multilineBasic
  else .basic

/-- An upper-case hexadecimal digit. -/
def hexDigit (n : Nat) : Char := (Nat.digitChar n).toUpper

/-- A character inside a basic string, quotes apart. -/
def escapeChar (multiline : Bool) (c : Char) : List Char :=
  if c = '\\' then ['\\', '\\']
  else if c = '\t' then ['\\', 't']
  else if c = '\n' then if multiline then ['\n'] else ['\\', 'n']
  else if c.toNat = 8 then ['\\', 'b']
  else if c.toNat = 12 then ['\\', 'f']
  else if c = '\r' then ['\\', 'r']
  else if needsCode c then
    ['\\', 'u', '0', '0', hexDigit (c.toNat / 16), hexDigit (c.toNat % 16)]
  else [c]

/-- The characters inside a basic string. Across lines two quotes may stand in a row, counted in
`quotes`; any further one is escaped, and so is every quote on one line. -/
def escape (multiline : Bool) : (quotes : Nat) → List Char → List Char
  | _, [] => []
  | quotes, c :: rest =>
    if c = '"' then
      if multiline && quotes < 2 then '"' :: escape multiline (quotes + 1) rest
      else '\\' :: '"' :: escape multiline 0 rest
    else
      escapeChar multiline c ++ escape multiline 0 rest

/-- The text of a string. -/
def quote (s : String) : List Char :=
  let text := s.toList
  match Quoting.of text with
  | .basic => '"' :: (escape false 0 text ++ ['"'])
  | .literal => '\'' :: (text ++ ['\''])
  | .multilineBasic => ['"', '"', '"', '\n'] ++ escape true 0 text ++ ['"', '"', '"']
  | .multilineLiteral => ['\'', '\'', '\'', '\n'] ++ text ++ ['\'', '\'', '\'']

/-- The character whose code point is written in hexadecimal digits. -/
def codePoint? (digits : List Char) : Option Char := do
  let n ← digits.foldlM (fun n d => do return 16 * n + (← hexValue? d)) 0
  if n < 0xD800 ∨ (0xDFFF < n ∧ n ≤ 0x10FFFF) then some (Char.ofNat n) else none

/-- The character that a letter means after a backslash. -/
def shortEscape? (c : Char) : Option Char :=
  if c = '"' ∨ c = '\\' then some c
  else if c = 'n' then some '\n'
  else if c = 'r' then some '\r'
  else if c = 't' then some '\t'
  else if c = 'b' then some (Char.ofNat 8)
  else if c = 'f' then some (Char.ofNat 12)
  else none

/-- Whether a character may stand as it is inside a string. -/
def isPlain (c : Char) : Bool := !needsCode c && c != '\n'

/-- A blank within a line. -/
def isBlank (c : Char) : Bool := c == ' ' || c == '\t'

/-- Whether a text begins with a line break. -/
def startsLine : List Char → Bool
  | '\n' :: _ | '\r' :: '\n' :: _ => true
  | _ => false

/-- Whether only blanks come before the end of the line. -/
def endsLine (text : List Char) : Bool := startsLine (text.dropWhile isBlank)

/-- What follows an optional line break. -/
def skipLineBreak : List Char → List Char
  | '\n' :: rest | '\r' :: '\n' :: rest => rest
  | text => text

/-- The characters of a basic string up to its closing quote, and what follows it. -/
def readBasic : List Char → Option (List Char × List Char)
  | [] => none
  | '"' :: rest => some ([], rest)
  | '\\' :: 'u' :: a :: b :: c :: d :: rest =>
    match codePoint? [a, b, c, d] with
    | some x => prepend x (readBasic rest)
    | none => none
  | '\\' :: 'U' :: a :: b :: c :: d :: e :: f :: g :: h :: rest =>
    match codePoint? [a, b, c, d, e, f, g, h] with
    | some x => prepend x (readBasic rest)
    | none => none
  | '\\' :: e :: rest =>
    match shortEscape? e with
    | some x => prepend x (readBasic rest)
    | none => none
  | c :: rest => if c != '\\' && isPlain c then prepend c (readBasic rest) else none

/-- The characters of a literal string up to its closing quote, and what follows it. -/
def readLiteral : List Char → Option (List Char × List Char)
  | [] => none
  | '\'' :: rest => some ([], rest)
  | c :: rest => if isPlain c then prepend c (readLiteral rest) else none

/-- What the marks at the front of a text close: three of them end a string across lines, with up to
two before them that belong to it. -/
def closing? (mark : Char) (text : List Char) : Option (List Char × List Char) :=
  let marks := (text.takeWhile (· == mark)).length
  if marks < 3 then none else some (List.replicate (min (marks - 3) 2) mark, text.drop (min marks 5))

/-- The characters of a basic string across lines, and what follows it. A backslash at the end of a
line hides the blanks and line breaks after it; while they are passed over, `skipping` holds. -/
def readMultilineBasic : (skipping : Bool) → List Char → Option (List Char × List Char)
  | _, [] => none
  | _, '\\' :: 'u' :: a :: b :: c :: d :: rest =>
    match codePoint? [a, b, c, d] with
    | some x => prepend x (readMultilineBasic false rest)
    | none => none
  | _, '\\' :: 'U' :: a :: b :: c :: d :: e :: f :: g :: h :: rest =>
    match codePoint? [a, b, c, d, e, f, g, h] with
    | some x => prepend x (readMultilineBasic false rest)
    | none => none
  | _, '\\' :: e :: rest =>
    match shortEscape? e with
    | some x => prepend x (readMultilineBasic false rest)
    | none => if endsLine (e :: rest) then readMultilineBasic true (e :: rest) else none
  | skipping, '\r' :: '\n' :: rest =>
    if skipping then readMultilineBasic true rest else prepend '\n' (readMultilineBasic false rest)
  | skipping, c :: rest =>
    match closing? '"' (c :: rest) with
    | some closed => some closed
    | none =>
      if skipping && (isBlank c || c == '\n') then readMultilineBasic true rest
      else if c == '\n' || (c != '\\' && isPlain c) then prepend c (readMultilineBasic false rest)
      else none

/-- The characters of a literal string across lines, and what follows it. -/
def readMultilineLiteral : List Char → Option (List Char × List Char)
  | [] => none
  | '\r' :: '\n' :: rest => prepend '\n' (readMultilineLiteral rest)
  | c :: rest =>
    match closing? '\'' (c :: rest) with
    | some closed => some closed
    | none => if c == '\n' || isPlain c then prepend c (readMultilineLiteral rest) else none

/-- The string at the front of a text, of any of the four forms. A line break right after the
opening quotes of a form across lines is no part of it. -/
def readString (text : List Char) : Option (String × List Char) :=
  let chars :=
    match text with
    | '"' :: '"' :: '"' :: rest => readMultilineBasic false (skipLineBreak rest)
    | '\'' :: '\'' :: '\'' :: rest => readMultilineLiteral (skipLineBreak rest)
    | '"' :: rest => readBasic rest
    | '\'' :: rest => readLiteral rest
    | _ => none
  chars.map fun (cs, rest) => (String.ofList cs, rest)

end QueueBoard.Toml
