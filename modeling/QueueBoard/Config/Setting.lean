import QueueBoard.Config
import QueueBoard.Toml
/-!
# Settings

The configuration is put together from layers: the built-in values, a file and the environment. A
layer is a tree of settings; of two layers the upper one wins key by key.
-/

namespace QueueBoard

/-- A setting or a table of settings, as a layer gives it. -/
inductive Setting where
  | text (s : String)
  | flag (b : Bool)
  | whole (n : Int)
  | number (x : Float)
  | list (items : List Setting)
  | table (members : List (String × Setting))
  /-- A setting that has a place but no value. -/
  | unset
  deriving Repr

namespace Setting

instance : Inhabited Setting := ⟨unset⟩

mutual
/-- The settings of a document. A date is a table of its own making. -/
def ofToml : Toml → Setting
  | .string s => text s
  | .integer n => whole n
  | .float x => number x
  | .boolean b => flag b
  | .datetime _ => table []
  | .array items => list (ofItems items)
  | .table members => table (ofMembers members)

/-- The settings of items. -/
def ofItems : List Toml → List Setting
  | [] => []
  | item :: rest => ofToml item :: ofItems rest

/-- The settings of members. -/
def ofMembers : List (String × Toml) → List (String × Setting)
  | [] => []
  | (name, v) :: rest => (name, ofToml v) :: ofMembers rest
end

/-- Puts a setting in the place of the one of its name, or at the end. -/
def put (name : String) (setting : Setting) : List (String × Setting) → List (String × Setting)
  | [] => [(name, setting)]
  | (n, s) :: rest => if n == name then (name, setting) :: rest else (n, s) :: put name setting rest

mutual
/-- A layer under another: tables are joined, anything else gives way. -/
def overlay (below : Setting) : Setting → Setting
  | .table upper =>
    match below with
    | .table lower => .table (overlayMembers lower upper)
    | _ => .table upper
  | above => above

/-- The members of a table under those of another. -/
def overlayMembers (lower : List (String × Setting)) :
    List (String × Setting) → List (String × Setting)
  | [] => lower
  | (name, above) :: rest =>
    let here :=
      match lower.lookup name with
      | none => above
      | some below => overlay below above
    overlayMembers (put name here lower) rest
end

/-- A setting under a path of names. -/
def nest (setting : Setting) : List String → Setting
  | [] => setting
  | name :: path => .table [(name, nest setting path)]

/-- What is wrong with a setting. -/
inductive Fault where
  | wrongType
  | wrongValue
  | wrongLength
  deriving Repr, BEq, DecidableEq

/-- A fault and the path to it. -/
structure Error where
  fault : Fault
  path : List String
  deriving Repr, BEq

/-- A string. -/
def asText : Setting → Except Fault String
  | .text s => .ok s
  | _ => .error .wrongType

/-- A string or nothing. -/
def asOptionalText : Setting → Except Fault (Option String)
  | .unset => .ok none
  | s => (asText s).map some

/-- A flag. -/
def asFlag : Setting → Except Fault Bool
  | .flag b => .ok b
  | _ => .error .wrongType

/-- A whole number that is not negative. -/
def asNat : Setting → Except Fault Nat
  | .whole n => if 0 ≤ n then .ok n.toNat else .error .wrongValue
  | _ => .error .wrongType

/-- A number. -/
def asNumber : Setting → Except Fault Float
  | .whole n => .ok (if 0 ≤ n then Float.ofNat n.toNat else -Float.ofNat n.natAbs)
  | .number x => .ok x
  | _ => .error .wrongType

/-- A key of a table of settings: its name, how a setting sets it, and whether it must be there when
the table is given as a list. -/
structure Key (ρ : Type) where
  name : String
  set : Setting → ρ → Except Error ρ
  listed : Bool := false

/-- A key that is set to what a reader makes of the setting. -/
def key {ρ β : Type} (name : String) (read : Setting → Except Fault β) (put : β → ρ → ρ) : Key ρ :=
  { name
    set := fun setting record =>
      match read setting with
      | .ok b => .ok (put b record)
      | .error fault => .error ⟨fault, []⟩ }

/-- An error under one more name. -/
def within {β : Type} (name : String) : Except Error β → Except Error β
  | .ok b => .ok b
  | .error e => .error { e with path := name :: e.path }

/-- The members in the order of their names. -/
def sorted (members : List (String × Setting)) : List (String × Setting) :=
  members.mergeSort fun a b => decide (a.1 ≤ b.1)

/-- Sets the keys that members name; other members are passed over. -/
def setMembers {ρ : Type} (keys : List (Key ρ)) : List (String × Setting) → ρ → Except Error ρ
  | [], record => .ok record
  | (name, setting) :: rest, record => do
    let record ←
      match keys.find? (·.name == name) with
      | some k => within name (k.set setting record)
      | none => .ok record
    setMembers keys rest record

/-- Sets the keys in order from the items of a list; items beyond them are passed over. -/
def setItems {ρ : Type} : (index : Nat) → List (Key ρ) → List Setting → ρ → Except Error ρ
  | index, k :: keys, setting :: rest, record => do
    let record ← within (toString index) (k.set setting record)
    setItems (index + 1) keys rest record
  | _, keys, _, record => if keys.any (·.listed) then .error ⟨.wrongLength, []⟩ else .ok record

/-- A record from a table, or from a list of its values in order. -/
def asRecord {ρ : Type} (keys : List (Key ρ)) (initial : ρ) : Setting → Except Error ρ
  | .table members => setMembers keys (sorted members) initial
  | .list items => setItems 0 keys items initial
  | _ => .error ⟨.wrongType, []⟩

end Setting

namespace Config

open Setting

/-- The keys of `Defaults`, in the order of their declaration. -/
def defaultKeys : List (Key Defaults) :=
  [key "canvas_width" asNumber fun v d => { d with canvasWidth := v },
    { key "queues_file" asOptionalText (fun v (d : Defaults) => { d with queuesFile := v }) with
      listed := true },
    { key "metrics_file" asOptionalText (fun v (d : Defaults) => { d with metricsFile := v }) with
      listed := true },
    key "animate" asFlag fun v d => { d with animate := v },
    key "output" asText fun v d => { d with output := v }]

/-- The keys of `Timing`, in the order of their declaration. -/
def timingKeys : List (Key Timing) :=
  [key "tick_ms" asNat fun v t => { t with tickMs := v },
    key "render_ms" asNat fun v t => { t with renderMs := v },
    key "double_click_ms" asNat fun v t => { t with doubleClickMs := v }]

/-- The two tables of a configuration. -/
def tableKeys : List (Key Config) :=
  [{ name := "defaults"
     set := fun s c => (asRecord defaultKeys {} s).map fun defaults => { c with defaults } },
    { name := "tui"
      set := fun s c => (asRecord timingKeys {} s).map fun timing => { c with timing } }]

/-- The configuration that settings describe; what they leave out has its built-in value. -/
def ofSetting (s : Setting) : Except Setting.Error Config := asRecord tableKeys {} s

/-- The built-in layer. -/
def builtIn : Setting :=
  .table [
    ("defaults", .table [("canvas_width", .number 1600), ("queues_file", .unset),
      ("metrics_file", .unset), ("animate", .flag true), ("output", .text "table")]),
    ("tui", .table [("tick_ms", .whole 1000), ("render_ms", .whole 33),
      ("double_click_ms", .whole 400)])]

end Config

end QueueBoard
