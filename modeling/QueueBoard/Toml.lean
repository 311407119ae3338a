import QueueBoard.Decimal.Style
import QueueBoard.Toml.Quoted
/-!
# TOML values and documents

What a TOML document holds: a table of values by name, in the order they were first named. A
document is written as tables of plain values with a blank line between two of them. Whole numbers
beyond 64 signed bits cannot be written.
-/

namespace QueueBoard

/-- A TOML value. -/
inductive Toml where
  | string (s : String)
  | integer (n : Int)
  | float (x : Float)
  | boolean (b : Bool)
  /-- A date, a time or both, as it was written. -/
  | datetime (text : String)
  | array (items : List Toml)
  | table (members : List (String × Toml))
  deriving Repr

namespace Toml

instance : Inhabited Toml := ⟨table []⟩

/-- The greatest integer of the format. -/
def maxInteger : Int := 9223372036854775807

/-- Whether an integer fits the format. -/
def fits (n : Int) : Bool := -maxInteger - 1 ≤ n && n ≤ maxInteger

/-- The text of a plain value. -/
def plainText : Toml → Option String
  | .string s => some (String.ofList (quote s))
  | .integer n => if fits n then some (toString n) else none
  | .float x =>
    -- the sign of what is no number is not told
    some (if x.isNaN then Decimal.Style.pointed.nan else Decimal.Style.pointed.text x)
  | .boolean b => some (if b then "true" else "false")
  | _ => none

/-- The line of a member. -/
def line (member : String × Toml) : Option String := do
  return member.1 ++ " = " ++ (← plainText member.2) ++ "\n"

/-- The lines of a table under its header. -/
def tableText (table : String × List (String × Toml)) : Option String := do
  return "[" ++ table.1 ++ "]\n" ++ String.join (← table.2.mapM line)

/-- The text of a document. -/
def documentText (tables : List (String × List (String × Toml))) : Option String := do
  return "\n".intercalate (← tables.mapM tableText)

end Toml

end QueueBoard
