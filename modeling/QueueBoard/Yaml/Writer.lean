import QueueBoard.Decimal.Style
import QueueBoard.Json
import QueueBoard.Yaml.Quoted
/-!
# YAML documents

A value in block style: members and items stand on lines of their own, inner members are indented by
two, items stand right below the name they belong to.
-/

namespace QueueBoard.Yaml

open Json

/-- A text whose inner line breaks other than `\n` are followed by the indentation. -/
def continued : List Char → List Char
  | [] => []
  | [c] => [c]
  | c :: d :: rest =>
    if isBreak c && !isBreak d then c :: ' ' :: ' ' :: continued (d :: rest)
    else c :: continued (d :: rest)

/-- A line indented by two; an empty one stays empty. -/
def indentLine (line : String) : String :=
  match line.toList with
  | [] => ""
  | c :: rest =>
    let text := String.ofList (continued (c :: rest))
    if isBreak c then text else "  " ++ text

/-- Lines after a head on the line of the first one; the others are indented. -/
def headed (head : String) : List String → List String
  | [] => [head]
  | first :: rest => (head ++ " " ++ String.ofList (continued first.toList)) :: rest.map indentLine

/-- The text of a number. -/
def numberText : Json.Number → String
  | .natural n => toString n
  | .negative n => "-" ++ toString n
  | .float x => Decimal.Style.yaml.text x

mutual
/-- The lines of a value. -/
def lines : Json → List String
  | .null => ["null"]
  | .boolean b => [if b then "true" else "false"]
  | .number n => [numberText n]
  | .string s => stringLines s
  | .array [] => ["[]"]
  | .array (item :: items) => itemLines (item :: items)
  | .object [] => ["\x7b\x7d"]
  | .object (entry :: members) => memberLines (entry :: members)

/-- The lines of items. -/
def itemLines : List Json → List String
  | [] => []
  | item :: rest => headed "-" (lines item) ++ itemLines rest

/-- The lines of members. -/
def memberLines : List (String × Json) → List String
  | [] => []
  | (name, value) :: rest =>
    let own := lines value
    let head := name ++ ":"
    (match value with
      | .array (_ :: _) => head :: own
      | .object (_ :: _) => head :: own.map indentLine
      | _ => headed head own) ++ memberLines rest
end

/-- The document of a value. -/
def document (value : Json) : String := String.join ((lines value).map (· ++ "\n"))

end QueueBoard.Yaml
