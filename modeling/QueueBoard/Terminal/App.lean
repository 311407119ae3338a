import QueueBoard.Terminal.Screen.Cluster
import QueueBoard.Terminal.Screen.Queues
/-!
# The terminal dashboard

Two screens behind tabs, a status bar and a page of help. Input becomes messages; a message changes
the state and may bring others after it.
-/

namespace QueueBoard.Terminal

variable {α : Type} [Scalar α] [Trig α]

/-- The last line for the status bar. -/
inductive Status where
  | info (message : String)
  | error (message : String)
  deriving Repr, BEq, DecidableEq

/-- The text of a status. -/
def Status.text : Status → String
  | info message | error message => message

/-- The state of the terminal dashboard. -/
structure App (α : Type) where
  active : ScreenId := .first
  queues : QueuesScreen α
  cluster : ClusterScreen α
  running : Bool := true
  helpVisible : Bool := false
  status : Option Status := none
  deriving Repr, DecidableEq

namespace App

/-- The dashboard at the start. -/
def new (now : Duration) (doubleClick : Nat) : App α where
  queues := .new now doubleClick
  cluster := .new now

/-- The dashboard with a screen focused or not. -/
def setFocus (a : App α) (screen : ScreenId) (focused : Bool) : App α :=
  match screen with
  | .queues => { a with queues := { a.queues with focused } }
  | .cluster => { a with cluster := { a.cluster with focused } }

/-- What a key asks for wherever it is pressed. -/
def global? (a : App α) (key : Key) : Option (Action α) :=
  match key.modifiers, key.code with
  | ⟨false, true, false⟩, .char 'c' | ⟨false, false, false⟩, .char 'q' => some .quit
  | ⟨false, false, false⟩, .char '?' => some .toggleHelp
  | ⟨false, false, false⟩, .char 'r' => some .reload
  | ⟨false, false, false⟩, .char c =>
    if c.isDigit then (ScreenId.ofNumber? (c.toNat - '0'.toNat)).map .switchScreen else none
  | _, .tab | _, .backTab => some (.switchScreen a.active.next)
  | _, _ => none

/-- Takes a key. While help is shown it is all that keys are about. -/
def onKey (a : App α) (now : Duration) (key : Key) : Option (Action α) × App α :=
  if a.helpVisible then
    match key.code with
    | .esc | .char '?' => (some .toggleHelp, a)
    | _ => (none, a)
  else
    match a.global? key with
    | some action => (some action, a)
    | none =>
      match a.active with
      | .queues => (none, { a with queues := a.queues.onKey now key })
      | .cluster => (none, { a with cluster := a.cluster.onKey key })

/-- Takes what the pointer does; it is of no use while help is shown. -/
def onPointer (a : App α) (now : Duration) (pointer : Pointer) : App α :=
  if a.helpVisible then a
  else
    match a.active with
    | .queues => { a with queues := a.queues.onPointer now pointer }
    | .cluster => { a with cluster := a.cluster.onPointer pointer }

/-- Takes an event; tells the message it stands for. -/
def onEvent (a : App α) (now : Duration) : Event → Option (Action α) × App α
  | .key key => a.onKey now key
  | .pointer pointer => (none, a.onPointer now pointer)
  | .resize columns rows => (some (.resize columns rows), a)
  | .tick => (some .tick, a)
  | .frame => (some .frame, a)

/-- A message for both screens; tells what follows from it. -/
def broadcast (a : App α) (now : Duration) (action : Action α) : List (Action α) × App α :=
  let (follow, queues) := a.queues.update now action
  (follow.toList, { a with queues, cluster := a.cluster.update now action })

/-- What is told until a reload has an answer. -/
def reloading : String := "reloading…"

/-- Takes a message; tells those that follow from it. -/
def process (a : App α) (now : Duration) (action : Action α) : List (Action α) × App α :=
  match action with
  | .quit => ([], { a with running := false })
  | .switchScreen target =>
    if target = a.active then ([], a)
    else ([], { (a.setFocus a.active false).setFocus target true with active := target })
  | .toggleHelp => ([], { a with helpVisible := !a.helpVisible })
  | .reload => ([], { a with status := some (.info reloading) })
  | .loadFailed message => ([], { a with status := some (.error message) })
  | .notify message => ([], { a with status := some (.info message) })
  | .resize .. | .queuesLoaded _ | .metricsLoaded _ => a.broadcast now action
  | .frame | .tick => ([], a)

/-- Takes messages in order; what follows from one comes after all that were there before. Tells all
in the order they were taken. `fuel` bounds their number: only loaded queues are followed by
something, and nothing follows from that. -/
def processFuel (now : Duration) : (fuel : Nat) → List (Action α) → App α → List (Action α) × App α
  | 0, _, a => ([], a)
  | _ + 1, [], a => ([], a)
  | fuel + 1, action :: rest, a =>
    let (follow, a) := a.process now action
    let (taken, a) := processFuel now fuel (rest ++ follow) a
    (action :: taken, a)

/-- Takes messages and all that follow from them. -/
def processAll (a : App α) (now : Duration) (actions : List (Action α)) : List (Action α) × App α :=
  processFuel now (2 * actions.length + 1) actions a

/-- The parts of a terminal: the screen, the tabs, the status bar. -/
def parts (area : Area) : Area × Area × Area :=
  let (screen, below) := area.splitAt (max 1 (area.height - 2))
  let (tabs, rest) := below.splitAt 1
  (screen, tabs, (rest.splitAt 1).1)

/-- The line of tabs. -/
def tabLine : String :=
  "  ".intercalate
    (ScreenId.all.map fun id => "  " ++ toString id.number ++ " " ++ id.label ++ " ") ++ " "

/-- The parts of the status bar. -/
def statusLine (a : App α) : List String :=
  [" ", (a.status.map Status.text).getD "", " │ ? help  r reload  q quit"]

/-- A line of help: a key and what it does. -/
def helpLine (key what : String) : List String :=
  ["  " ++ key ++ String.ofList (List.replicate (12 - key.length) ' '), what]

/-- The page of help. -/
def helpText : List (List String) :=
  [[], helpLine "1-2 / Tab" "Switch dashboard", helpLine "j/k ↑/↓" "Select next / previous queue",
    helpLine "g/G" "First / last queue", helpLine "Enter Space" "Fold or unfold selection",
    helpLine "PgUp/PgDn" "Scroll canvas", helpLine "r" "Reload snapshots",
    helpLine "q Ctrl+c" "Quit",
    [], helpLine "hover" "Show chart value", helpLine "click" "Select queue",
    helpLine "double-click" "Fold or unfold queue", helpLine "wheel" "Scroll canvas", [],
    ["                 Esc or ? to close"]]

/-- Where the page of help goes. -/
def helpArea (area : Area) : Area :=
  let width := min 52 (area.width - 4)
  let height := min 16 (area.height - 4)
  { x := area.x + (area.width - width) / 2, y := area.y + (area.height - height) / 2
    width, height }

/-- The page of help over everything else. -/
def drawHelp (cells : Cells) : Cells :=
  let place := helpArea cells.area
  ((cells.clear place).panel place "Keyboard & Mouse").writeLines place.inner helpText

/-- Draws the active screen. -/
def drawScreen (a : App α) (now : Duration) (area : Area) (cells : Cells) : Cells × App α :=
  match a.active with
  | .queues =>
    let (cells, queues) := a.queues.draw now area cells
    (cells, { a with queues })
  | .cluster =>
    let (cells, cluster) := a.cluster.draw now area cells
    (cells, { a with cluster })

/-- Draws everything onto a terminal of a size. -/
def draw (a : App α) (now : Duration) (columns rows : Nat) : Cells × App α :=
  let cells := Cells.blank columns rows
  let (screen, tabs, status) := parts cells.area
  let (cells, a) := a.drawScreen now screen cells
  let cells := (cells.writeLine tabs [tabLine]).writeLine status a.statusLine
  (if a.helpVisible then drawHelp cells else cells, a)

end App

end QueueBoard.Terminal
