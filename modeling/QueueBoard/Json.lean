import QueueBoard.Decimal.Style
/-!
# JSON values

Numbers keep the form they were read in: whole numbers of up to 64 bits stay whole, all others are
floats. A value that was read has its members sorted by name, each name once.
-/

namespace QueueBoard

/-- A JSON number. -/
inductive Json.Number where
  | natural (n : Nat)
  /-- The number `-n`. -/
  | negative (n : Nat)
  | float (x : Float)
  deriving Repr

/-- A JSON value. -/
inductive Json where
  | null
  | boolean (b : Bool)
  | number (n : Json.Number)
  | string (s : String)
  | array (items : List Json)
  | object (members : List (String × Json))
  deriving Repr

namespace Json

instance : Inhabited Json := ⟨null⟩

/-- The number as a float. -/
def Number.toFloat : Number → Float
  | .natural n => Float.ofNat n
  | .negative n => -Float.ofNat n
  | .float x => x

/-- A whole number. -/
def natural (n : Nat) : Json := .number (.natural n)

/-- A float; what is no number is null. -/
def float (x : Float) : Json := if x.isFinite then .number (.float x) else .null

/-- A value or null. -/
def optional {β : Type} (write : β → Json) : Option β → Json
  | none => .null
  | some b => write b

/-- The value of a member. -/
def member? (name : String) : Json → Option Json
  | object members => members.lookup name
  | _ => none

mutual
/-- How deep arrays and objects are nested. -/
def depth : Json → Nat
  | .array items => depthOfItems items + 1
  | .object members => depthOfMembers members + 1
  | _ => 0

/-- The depth of the deepest item. -/
def depthOfItems : List Json → Nat
  | [] => 0
  | item :: rest => max item.depth (depthOfItems rest)

/-- The depth of the deepest member. -/
def depthOfMembers : List (String × Json) → Nat
  | [] => 0
  | (_, value) :: rest => max value.depth (depthOfMembers rest)
end

end Json

end QueueBoard
