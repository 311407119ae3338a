import QueueBoard.Scalar.Float
/-!
# The configuration

Settings that the command line and the terminal dashboard share.
-/

namespace QueueBoard

/-- What commands use when they are not told otherwise. -/
structure Defaults where
  canvasWidth : Float := 1600
  /-- The queue snapshot. -/
  queuesFile : Option String := none
  /-- The cluster metrics snapshot. -/
  metricsFile : Option String := none
  /-- Whether pictures carry animations. -/
  animate : Bool := true
  output : String := "table"
  deriving Repr

/-- Times of the terminal dashboard in milliseconds. -/
structure Timing where
  tickMs : Nat := 1000
  renderMs : Nat := 33
  /-- Two clicks on one queue within this time fold it. -/
  doubleClickMs : Nat := 400
  deriving Repr, BEq, DecidableEq

/-- The whole configuration. -/
structure Config where
  defaults : Defaults := {}
  timing : Timing := {}
  deriving Repr

namespace Config

/-- Why a configuration is of no use. -/
inductive Invalid where
  | width (given : Float)
  | interval
  deriving Repr

/-- The message of a fault. -/
def Invalid.message : Invalid → String
  | .width w =>
    "invalid defaults.canvas_width: expected a positive width, got " ++ Decimal.Style.plain.text w
  | .interval => "invalid tui: intervals must be at least 1 ms"

/-- Whether a width is one of a canvas: finite and positive. -/
def isWidth (width : Float) : Bool := width.isFinite && decide (0 < width)

/-- The first fault of a configuration. -/
def fault? (c : Config) : Option Invalid :=
  if !isWidth c.defaults.canvasWidth then some (.width c.defaults.canvasWidth)
  else if c.timing.renderMs == 0 || c.timing.tickMs == 0 then some .interval
  else none

end Config

end QueueBoard
