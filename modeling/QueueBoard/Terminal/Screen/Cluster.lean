import QueueBoard.Dashboard.Cluster
import QueueBoard.Terminal.ScreenId
import QueueBoard.Terminal.Raster
import QueueBoard.Terminal.Click
/-!
# The cluster screen

The cluster dashboard on the terminal.
-/

namespace QueueBoard.Terminal

variable {α : Type} [Scalar α] [Trig α]

/-- The state of the cluster screen. -/
structure ClusterScreen (α : Type) where
  dashboard : ClusterDashboard α
  viewport : Viewport α
  clock : SceneClock
  focused : Bool := false
  /-- Whether there was a snapshot. -/
  loaded : Bool := false
  /-- Where the picture was drawn last. -/
  canvas : Area := {}
  deriving Repr, DecidableEq

namespace ClusterScreen

/-- The screen at the start, for a terminal of 80 columns. -/
def new (now : Duration) : ClusterScreen α where
  dashboard := .new (canvasWidth 80)
  viewport := .top
  clock := ⟨now, 0⟩

/-- The screen with its clock on the present picture. -/
def sync (s : ClusterScreen α) (now : Duration) : ClusterScreen α :=
  { s with clock := s.clock.sync now s.dashboard.generation }

/-- Takes a key; only those that scroll mean anything here. -/
def onKey (s : ClusterScreen α) (key : Key) : ClusterScreen α :=
  match s.viewport.scrollKey key s.dashboard.height s.canvas with
  | some viewport => { s with viewport }
  | none => s

/-- Scrolls. -/
def scrollBy (s : ClusterScreen α) (delta : α) : ClusterScreen α :=
  { s with viewport := s.viewport.scrollBy delta s.dashboard.height s.canvas }

/-- Takes what the pointer does. -/
def onPointer (s : ClusterScreen α) (pointer : Pointer) : ClusterScreen α :=
  match pointer.kind with
  | .moved =>
    match s.viewport.toScene s.canvas pointer.column pointer.row with
    | some p => { s with dashboard := s.dashboard.pointerMoved p }
    | none => { s with dashboard := s.dashboard.pointerLeft }
  | .scrollDown => s.scrollBy wheelStep
  | .scrollUp => s.scrollBy (-wheelStep)
  | .dragged | .leftDown | .otherDown | .up | .scrollAside => s

/-- Takes a message; nothing follows from any. -/
def update (s : ClusterScreen α) (now : Duration) : Action α → ClusterScreen α
  | .metricsLoaded metrics =>
    { s with dashboard := s.dashboard.load metrics, loaded := true }.sync now
  | .resize columns _ => { s with dashboard := s.dashboard.resize (canvasWidth columns) }.sync now
  | _ => s

/-- The title of the panel. -/
def title : String := ScreenId.cluster.label

/-- The keys told below the picture. -/
def hints : List Hint := [("hover", "values"), ("PgUp/PgDn", "scroll"), ("r", "reload")]

/-- What stands on the canvas without a snapshot. -/
def placeholder : String :=
  "No cluster metrics yet. Pass --metrics <FILE> or set defaults.metrics_file."

/-- Draws the screen into an area, where the pointer will look for it. -/
def draw (s : ClusterScreen α) (now : Duration) (area : Area) (cells : Cells) :
    Cells × ClusterScreen α :=
  let canvas := canvasOf area
  let cells := drawChrome cells area title hints
  let cells :=
    if s.loaded then
      drawTooltip (drawScene s.dashboard.scene (s.clock.elapsed now) s.viewport canvas cells) canvas
        s.dashboard.tooltip.tooltip s.viewport
    else drawPlaceholder cells canvas placeholder
  (cells, { s with canvas })

end ClusterScreen

end QueueBoard.Terminal
