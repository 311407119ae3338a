import QueueBoard.Config.Setting
import QueueBoard.Decimal.Reading
import QueueBoard.Text.Basic
import QueueBoard.Toml.Quoted
/-!
# Settings from the environment

A variable such as `QUEUESCOPE_TUI__TICK_MS` gives the setting `tui.tick_ms`. Its value is a
boolean, a number, a quoted string as in TOML, a list, a table, or else a plain string.
-/

namespace QueueBoard.Config.Environment

/-- Names and values of variables, in the order they are given. -/
abbrev Variables := List (String × String)

/-- The value of a variable. -/
def lookup (env : Variables) (name : String) : Option String := List.lookup name env

/-- What the names of settings begin with, in any case. -/
def leader : List Char := "queuescope_".toList

/-- A letter without case. -/
def lower (text : List Char) : List Char := text.map Char.toLower

/-- Parts of a name: single points and double underscores separate them. -/
def splitName : (part : List Char) → List Char → List String
  | part, [] => [String.ofList part.reverse]
  | part, '_' :: '_' :: rest | part, '.' :: rest => String.ofList part.reverse :: splitName [] rest
  | part, c :: rest => splitName (c :: part) rest

/-- The path that a variable's name gives, if it is the name of a setting. -/
def path? (name : String) : Option (List String) :=
  let chars := lower (Text.trim name.toList)
  if leader.isPrefixOf chars then
    let parts := splitName [] (Text.trim (chars.drop leader.length))
    if parts.any (·.isEmpty) then none else some parts
  else none

/-- What separates values in lists and tables. -/
def isSeparator (c : Char) : Bool := c == ',' || c == '\x7b' || c == '\x7d' || c == '[' || c == ']'

/-- A blank of any kind within ASCII. -/
def isBlank (c : Char) : Bool :=
  c == ' ' || c == '\t' || c == '\n' || c == '\r' || c.toNat == 12

/-- What follows blanks. -/
def skipBlanks (text : List Char) : List Char := text.dropWhile isBlank

/-- A whole number of 64 bits; a sign may stand before it. -/
def whole? (word : List Char) : Option Int :=
  let (negative, digits) := Decimal.takeSign word
  if digits.isEmpty || !digits.all Char.isDigit then none
  else
    let n := Decimal.digitsOnto 0 digits
    if negative then if n ≤ Nat.pow 2 63 then some (-(n : Int)) else none
    else if n < Nat.pow 2 64 then some n else none

/-- The value of a bare word. A float has a point. -/
def ofWord (word : List Char) : Setting :=
  let number := if word.contains '.' then Decimal.readFloat (String.ofList word) else none
  match number with
  | some x => .number x
  | none =>
    match whole? word with
    | some n => .whole n
    | none => .text (String.ofList word)

/-- The key at the front, and what follows it. -/
def readKey (text : List Char) : Option (String × List Char) :=
  match text with
  | '"' :: rest => (Toml.readBasic rest).map fun (cs, rest) => (String.ofList cs, rest)
  | _ =>
    let isKeyChar := fun (c : Char) => c.isAlphanum || c == '_' || c == '-'
    let word := text.takeWhile isKeyChar
    if word.isEmpty then none else some (String.ofList word, text.dropWhile isKeyChar)

/-- Values between a pair of brackets, with commas between them; `step` reads one of them. -/
def readDelimited {β : Type} (closing : Char) (step : List Char → Option (β × List Char)) :
    (fuel : Nat) → List Char → Option (List β × List Char)
  | 0, _ => none
  | fuel + 1, text => do
    match skipBlanks text with
    | c :: rest =>
      if c == closing then return ([], rest)
      else
        let (value, rest) ← step (c :: rest)
        match skipBlanks rest with
        | ',' :: rest =>
          let (values, rest) ← readDelimited closing step fuel rest
          return (value :: values, rest)
        | c :: rest => if c == closing then return ([value], rest) else none
        | [] => none
    | [] => none

/-- The value at the front, and what follows it and the blanks around it. -/
def readValue : (fuel : Nat) → List Char → Option (Setting × List Char)
  | 0, _ => none
  | fuel + 1, text => do
    let (value, rest) ←
      match skipBlanks text with
      | 't' :: 'r' :: 'u' :: 'e' :: rest => some (.flag true, rest)
      | 'f' :: 'a' :: 'l' :: 's' :: 'e' :: rest => some (.flag false, rest)
      | '\x7b' :: rest =>
        let pair := fun text => do
          let (name, rest) ← readKey (skipBlanks text)
          match skipBlanks rest with
          | '=' :: rest =>
            let (value, rest) ← readValue fuel rest
            return ((name, value), rest)
          | _ => none
        (readDelimited '\x7d' pair (rest.length + 1) rest).map fun (members, rest) =>
          (.table (members.foldl (fun ms (name, value) => Setting.put name value ms) []), rest)
      | '[' :: rest =>
        (readDelimited ']' (readValue fuel) (rest.length + 1) rest).map fun (items, rest) =>
          (.list items, rest)
      | '"' :: rest => (Toml.readBasic rest).map fun (cs, rest) => (.text (String.ofList cs), rest)
      | '\'' :: c :: '\'' :: rest => some (.text (String.singleton c), rest)
      | '\'' :: _ => none
      | text =>
        some (ofWord (Text.trim (text.takeWhile (!isSeparator ·))), text.dropWhile (!isSeparator ·))
    return (value, skipBlanks rest)

/-- The setting that a value gives; one that is not well formed is a string. -/
def ofValue (value : String) : Setting :=
  match readValue (value.length + 1) value.toList with
  | some (setting, []) => setting
  | _ => .text value

/-- The layer of the environment. Of two variables for one setting the later wins. -/
def layer (env : Variables) : Setting :=
  env.foldl (fun settings (name, value) =>
    match path? name with
    | some path => settings.overlay ((ofValue value).nest path)
    | none => settings) (.table [])

end QueueBoard.Config.Environment
