import QueueBoard.Json
import QueueBoard.Json.Quoted
/-!
# JSON texts

Two forms: compact, without any blank, and indented by two for every level.
-/

namespace QueueBoard.Json

/-- The text of a number. -/
def Number.text : Number → String
  | .natural n => toString n
  | .negative n => "-" ++ toString n
  | .float x => Decimal.Style.json.text x

/-- The text of a value without inner ones. -/
def scalarText : Json → String
  | .null => "null"
  | .boolean b => if b then "true" else "false"
  | .number n => n.text
  | .string s => String.ofList (quote s)
  | .array _ => "[]"
  | .object _ => "\x7b\x7d"

mutual
/-- The compact text. -/
def compact : Json → String
  | .array items => "[" ++ compactItems items ++ "]"
  | .object members => "\x7b" ++ compactMembers members ++ "\x7d"
  | value => value.scalarText

/-- Items with commas between them. -/
def compactItems : List Json → String
  | [] => ""
  | [item] => item.compact
  | item :: next :: rest => item.compact ++ "," ++ compactItems (next :: rest)

/-- Members with commas between them. -/
def compactMembers : List (String × Json) → String
  | [] => ""
  | [(name, value)] => String.ofList (quote name) ++ ":" ++ value.compact
  | (name, value) :: next :: rest =>
    String.ofList (quote name) ++ ":" ++ value.compact ++ "," ++ compactMembers (next :: rest)
end

/-- A line break and the indentation of a level. -/
def newline (level : Nat) : String := "\n" ++ String.ofList (List.replicate (2 * level) ' ')

mutual
/-- The indented text at a level. -/
def indented (level : Nat) : Json → String
  | .array (item :: rest) =>
    "[" ++ indentedItems (level + 1) (item :: rest) ++ newline level ++ "]"
  | .object (member :: rest) =>
    "\x7b" ++ indentedMembers (level + 1) (member :: rest) ++ newline level ++ "\x7d"
  | value => value.scalarText

/-- Items on lines of their own. -/
def indentedItems (level : Nat) : List Json → String
  | [] => ""
  | [item] => newline level ++ item.indented level
  | item :: next :: rest =>
    newline level ++ item.indented level ++ "," ++ indentedItems level (next :: rest)

/-- Members on lines of their own. -/
def indentedMembers (level : Nat) : List (String × Json) → String
  | [] => ""
  | [(name, value)] =>
    newline level ++ String.ofList (quote name) ++ ": " ++ value.indented level
  | (name, value) :: next :: rest =>
    newline level ++ String.ofList (quote name) ++ ": " ++ value.indented level ++ "," ++
      indentedMembers level (next :: rest)
end

/-- The indented text. -/
def pretty (value : Json) : String := value.indented 0

end QueueBoard.Json
