/-!
# Input

Keys, the pointer and the two clocks. Only presses of keys count. The pointer moves often, so of its
moves the last one waits for the next frame, or for any other input, which must find it there.
-/

namespace QueueBoard.Terminal

/-- A key. -/
inductive KeyCode where
  | char (c : Char)
  | enter
  | esc
  | tab
  | backTab
  | up
  | down
  | left
  | right
  | home
  | «end»
  | pageUp
  | pageDown
  /-- A key that means nothing here. -/
  | other
  deriving Repr, BEq, DecidableEq

namespace KeyCode

/-- The names of the keys that are no characters. -/
def names : List (String × KeyCode) :=
  [("Enter", enter), ("Esc", esc), ("Tab", tab), ("BackTab", backTab), ("Up", up), ("Down", down),
    ("Left", left), ("Right", right), ("Home", home), ("End", «end»), ("PageUp", pageUp),
    ("PageDown", pageDown)]

/-- The key of a name; a character is its own name. -/
def named (name : String) : KeyCode :=
  match names.lookup name, name.toList with
  | some code, _ => code
  | none, [c] => char c
  | none, _ => other

/-- The name of a key. -/
def name : KeyCode → String
  | char c => String.singleton c
  | code => ((names.find? (·.2 == code)).map (·.1)).getD ""

end KeyCode

/-- The keys held down besides. -/
structure Modifiers where
  shift : Bool := false
  control : Bool := false
  alt : Bool := false
  deriving Repr, BEq, DecidableEq

/-- A key with its modifiers. -/
structure Key where
  code : KeyCode
  modifiers : Modifiers := {}
  deriving Repr, BEq, DecidableEq

/-- What the pointer does. -/
inductive PointerKind where
  | moved
  | dragged
  | leftDown
  /-- Another button goes down. -/
  | otherDown
  | up
  | scrollDown
  | scrollUp
  /-- Sideways. -/
  | scrollAside
  deriving Repr, BEq, DecidableEq

/-- The pointer on a cell. -/
structure Pointer where
  kind : PointerKind
  column : Nat
  row : Nat
  deriving Repr, BEq, DecidableEq

/-- What becomes of a key. -/
inductive KeyChange where
  | press
  | release
  | again
  deriving Repr, BEq, DecidableEq

/-- What a terminal reports. -/
inductive RawInput where
  | key (change : KeyChange) (key : Key)
  | pointer (pointer : Pointer)
  | resize (columns rows : Nat)
  | focus
  | blur
  | paste
  deriving Repr, BEq, DecidableEq

/-- What the dashboard reacts to. -/
inductive Event where
  | key (key : Key)
  | pointer (pointer : Pointer)
  | resize (columns rows : Nat)
  /-- The slow clock. -/
  | tick
  /-- The clock of frames. -/
  | frame
  deriving Repr, BEq, DecidableEq

/-- The event of a report, if it means anything. -/
def RawInput.event? : RawInput → Option Event
  | .key .press k => some (.key k)
  | .pointer p => some (.pointer p)
  | .resize columns rows => some (.resize columns rows)
  | .key .release _ | .key .again _ | .focus | .blur | .paste => none

/-- Holds back the last move of the pointer. -/
structure MotionFilter where
  pending : Option Pointer := none
  deriving Repr, BEq, DecidableEq

/-- Takes an event and tells which are let through. A tick lets no move through. -/
def MotionFilter.letThrough (f : MotionFilter) : Event → List Event × MotionFilter
  | .tick => ([.tick], f)
  | .pointer p =>
    if p.kind = .moved then ([], ⟨some p⟩)
    else (f.pending.toList.map .pointer ++ [.pointer p], {})
  | event => (f.pending.toList.map .pointer ++ [event], {})

end QueueBoard.Terminal
