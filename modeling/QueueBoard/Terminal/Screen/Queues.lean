import QueueBoard.Dashboard.Queues
import QueueBoard.Terminal.ScreenId
import QueueBoard.Terminal.Raster
import QueueBoard.Terminal.Click
/-!
# The queue screen

The queue dashboard on the terminal. Keys walk the visible queues and fold the selected one, a click
selects the queue under the pointer and a double click folds it.
-/

namespace QueueBoard.Terminal

variable {α : Type} [Scalar α] [Trig α]

/-- The state of the queue screen. -/
structure QueuesScreen (α : Type) where
  dashboard : QueueDashboard α
  viewport : Viewport α
  clock : SceneClock
  clicks : ClickTracker
  focused : Bool := false
  /-- Whether there was a snapshot. -/
  loaded : Bool := false
  /-- Where the picture was drawn last; that is where the pointer looks for it. -/
  canvas : Area := {}
  deriving Repr, DecidableEq

namespace QueuesScreen

/-- The screen at the start, for a terminal of 80 columns. -/
def new (now : Duration) (doubleClick : Nat) : QueuesScreen α where
  dashboard := .new (canvasWidth 80)
  viewport := .top
  clock := ⟨now, 0⟩
  clicks := ⟨doubleClick, none⟩

/-- The screen with its clock on the present picture. -/
def sync (s : QueuesScreen α) (now : Duration) : QueuesScreen α :=
  { s with clock := s.clock.sync now s.dashboard.generation }

/-- Selects the queue some rows further. -/
def selectNeighbor (s : QueuesScreen α) (offset : Int) : QueuesScreen α :=
  match s.dashboard.neighbor offset with
  | some name => { s with dashboard := s.dashboard.select name }
  | none => s

/-- Folds or unfolds the selected queue. -/
def toggleSelected (s : QueuesScreen α) : QueuesScreen α :=
  match s.dashboard.selected with
  | some name => { s with dashboard := (s.dashboard.toggleFold name).2 }
  | none => s

/-- Further than there are rows. -/
def farAway : Int := 9223372036854775808

/-- What a key does that does not scroll. -/
def command? (code : KeyCode) : Option (QueuesScreen α → QueuesScreen α) :=
  match code with
  | .char 'j' | .down => some (selectNeighbor · 1)
  | .char 'k' | .up => some (selectNeighbor · (-1))
  | .char 'g' | .home => some (selectNeighbor · (-farAway))
  | .char 'G' | .end => some (selectNeighbor · farAway)
  | .enter | .char ' ' => some toggleSelected
  | _ => none

/-- Takes a key. -/
def onKey (s : QueuesScreen α) (now : Duration) (key : Key) : QueuesScreen α :=
  match s.viewport.scrollKey key s.dashboard.height s.canvas with
  | some viewport => { s with viewport }
  | none =>
    match command? key.code with
    | some command => (command s).sync now
    | none => s

/-- The pointer moved, and is on a point of the scene or beside it. -/
def hover (s : QueuesScreen α) : Option (Point α) → QueuesScreen α
  | some p => { s with dashboard := s.dashboard.pointerMoved p }
  | none => { s with dashboard := s.dashboard.pointerLeft }

/-- The left button went down on a cell that shows a point of the scene. -/
def press (s : QueuesScreen α) (now : Duration) (pointer : Pointer) (p : Point α) :
    QueuesScreen α :=
  let (click, clicks) := s.clicks.register now.nanos pointer.column pointer.row
  let dashboard :=
    match click with
    | .single => (s.dashboard.click p).2
    | .double => (s.dashboard.doubleClick p).2
  { s with clicks, dashboard }

/-- Scrolls. -/
def scrollBy (s : QueuesScreen α) (delta : α) : QueuesScreen α :=
  { s with viewport := s.viewport.scrollBy delta s.dashboard.height s.canvas }

/-- Takes what the pointer does. -/
def onPointer (s : QueuesScreen α) (now : Duration) (pointer : Pointer) : QueuesScreen α :=
  let point := s.viewport.toScene s.canvas pointer.column pointer.row
  match pointer.kind with
  | .moved | .dragged => (s.hover point).sync now
  | .leftDown =>
    match point with
    | some p => (s.press now pointer p).sync now
    | none => s
  | .scrollDown => (s.scrollBy wheelStep).sync now
  | .scrollUp => (s.scrollBy (-wheelStep)).sync now
  | .otherDown | .up | .scrollAside => s.sync now

/-- Another snapshot. -/
def load (s : QueuesScreen α) (now : Duration) (records : List (QueueRecord α)) : QueuesScreen α :=
  { s with dashboard := s.dashboard.load records, viewport := .top, loaded := true }.sync now

/-- Another size of the terminal. -/
def resize (s : QueuesScreen α) (now : Duration) (columns : Nat) : QueuesScreen α :=
  { s with dashboard := s.dashboard.resize (canvasWidth columns) }.sync now

/-- Takes a message; tells one that follows from it. -/
def update (s : QueuesScreen α) (now : Duration) : Action α → Option (Action α) × QueuesScreen α
  | .queuesLoaded records =>
    let s := s.load now records
    (some (.notify (toString s.dashboard.tree.size ++ " queues loaded")), s)
  | .resize columns _ => (none, s.resize now columns)
  | _ => (none, s)

/-- The title of the panel. -/
def title (s : QueuesScreen α) : String :=
  match s.dashboard.selected with
  | some name => ScreenId.queues.label ++ " · " ++ name
  | none => ScreenId.queues.label

/-- The keys told below the picture. -/
def hints : List Hint :=
  [("j/k", "select"), ("enter", "fold"), ("click", "select"), ("dbl-click", "fold"),
    ("PgUp/PgDn", "scroll"), ("r", "reload")]

/-- What stands on the canvas without a snapshot. -/
def placeholder : String :=
  "No queue snapshot yet. Pass --queues <FILE> or set defaults.queues_file."

/-- Draws the screen into an area, where the pointer will look for it. -/
def draw (s : QueuesScreen α) (now : Duration) (area : Area) (cells : Cells) :
    Cells × QueuesScreen α :=
  let canvas := canvasOf area
  let cells := drawChrome cells area s.title hints
  let cells :=
    if s.loaded then
      drawTooltip (drawScene s.dashboard.scene (s.clock.elapsed now) s.viewport canvas cells) canvas
        s.dashboard.tooltip.tooltip s.viewport
    else drawPlaceholder cells canvas placeholder
  (cells, { s with canvas })

end QueuesScreen

end QueueBoard.Terminal
