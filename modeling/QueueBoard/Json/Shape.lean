import QueueBoard.Json
import QueueBoard.Text.Basic
/-!
# Values of a known shape

Reading a JSON value as a float, a string, a list or a record, with the cause if it is none. A
record is an object, or an array of its fields in order; members of other names are passed over.
-/

namespace QueueBoard.Json

/-- Why a value has not the wanted shape. -/
inductive ShapeError where
  | wrongType (found : Json) (wanted : String)
  | missingField (name : String)
  | wrongLength (length : Nat) (wanted : String)
  deriving Repr

/-- How a message names a value. -/
def describe : Json → String
  | .null => "null"
  | .boolean b => "boolean `" ++ (if b then "true" else "false") ++ "`"
  | .number (.natural n) => "integer `" ++ toString n ++ "`"
  | .number (.negative n) => "integer `-" ++ toString n ++ "`"
  | .number (.float x) => "floating point `" ++ Decimal.Style.json.text x ++ "`"
  | .string s => "string " ++ Text.quoted s
  | .array _ => "sequence"
  | .object _ => "map"

/-- The message of a cause. -/
def ShapeError.message : ShapeError → String
  | .wrongType found wanted => "invalid type: " ++ found.describe ++ ", expected " ++ wanted
  | .missingField name => "missing field `" ++ name ++ "`"
  | .wrongLength length wanted => "invalid length " ++ toString length ++ ", expected " ++ wanted

/-- A number as a float. -/
def asFloat : Json → Except ShapeError Float
  | .number n => .ok n.toFloat
  | found => .error (.wrongType found "f64")

/-- A string. -/
def asString : Json → Except ShapeError String
  | .string s => .ok s
  | found => .error (.wrongType found "a string")

/-- A value of some shape, or null. -/
def asOptional {β : Type} (read : Json → Except ShapeError β) : Json → Except ShapeError (Option β)
  | .null => .ok none
  | found => (read found).map some

/-- An array of values of one shape. -/
def asList {β : Type} (read : Json → Except ShapeError β) : Json → Except ShapeError (List β)
  | .array items => items.mapM read
  | found => .error (.wrongType found "a sequence")

/-- A field of a record: its name, how a value sets it, and whether it must be given. -/
structure RecordField (ρ : Type) where
  name : String
  set : Json → ρ → Except ShapeError ρ
  required : Bool := false

/-- A field that is set to what a reader makes of the value. -/
def field {ρ β : Type} (name : String) (read : Json → Except ShapeError β) (put : β → ρ → ρ) :
    RecordField ρ :=
  { name, set := fun value record => (read value).map fun b => put b record }

/-- Sets the fields that members name, one member after another. -/
def setMembers {ρ : Type} (fields : List (RecordField ρ)) :
    List (String × Json) → ρ → Except ShapeError ρ
  | [], record => .ok record
  | (name, value) :: rest, record => do
    let record ←
      match fields.find? (·.name == name) with
      | some f => f.set value record
      | none => .ok record
    setMembers fields rest record

/-- Sets the fields in order from the items of an array; gives the record and the items left. -/
def setItems {ρ : Type} : List (RecordField ρ) → List Json → ρ → Except ShapeError (ρ × List Json)
  | f :: fields, value :: rest, record => do setItems fields rest (← f.set value record)
  | _, rest, record => .ok (record, rest)

/-- What a message calls a record with some number of fields. -/
def recordName (name : String) (count : Nat) : String :=
  "struct " ++ name ++ " with " ++ toString count ++ " element" ++ (if count == 1 then "" else "s")

/-- A record from the members of an object, or from the items of an array. -/
def asRecord {ρ : Type} (name : String) (fields : List (RecordField ρ)) (initial : ρ) :
    Json → Except ShapeError ρ
  | .object members => do
    let record ← setMembers fields members initial
    match fields.find? fun f => f.required && (members.lookup f.name).isNone with
    | some f => .error (.missingField f.name)
    | none => .ok record
  | .array items => do
    let (record, rest) ← setItems fields items initial
    match (fields.drop items.length).findIdx? (·.required) with
    | some i => .error (.wrongLength (items.length + i) (recordName name fields.length))
    | none =>
      if rest.isEmpty then .ok record
      else .error (.wrongLength items.length "fewer elements in array")
  | found => .error (.wrongType found ("struct " ++ name))

end QueueBoard.Json
