import QueueBoard.Chart.Plan
import QueueBoard.Cluster
import QueueBoard.Scene
import QueueBoard.Scene.Tooltip
/-!
# The cluster dashboard

Five donuts over the counters of a cluster.
-/

namespace QueueBoard

variable {α : Type} [Scalar α] [Trig α]

/-- The state of the cluster dashboard and the picture of it. -/
structure ClusterDashboard (α : Type) where
  width : α
  metrics : ClusterMetrics α
  tooltip : TooltipController α
  height : α
  scene : Scene α
  /-- Number of pictures drawn so far; hosts restart entrances when it grows. -/
  generation : Nat := 0
  deriving Repr, DecidableEq

namespace ClusterDashboard

/-- Height of the canvas unless the donuts need more. -/
def leastHeight : α := 1200

/-- Donuts with a legend. -/
def options : Donut.Options α := Donut.Options.withSideLabels {}

/-- The donut of a resource; the hole tells how much there is of it. -/
def resourceDonut (m : ClusterMetrics α) (r : Resource) : PlannedChart α :=
  let unit := match r.unit? with
    | some unit => " (" ++ unit ++ ")"
    | none => ""
  { title := "Resource: " ++ r.name ++ unit
    data := [⟨"Allocated", m.allocated r⟩, ⟨"Reserved", m.reserved r⟩,
      ⟨"Available", m.available r⟩]
    kind := .donut (options.withCenter "Total" (m.total r)) }

/-- The charts of a cluster's counters. -/
def plan (m : ClusterMetrics α) : List (PlannedChart α) :=
  [{ title := "Finished Apps"
     data := [⟨"Completed", m.appsCompleted⟩, ⟨"Killed", m.appsKilled⟩, ⟨"Failed", m.appsFailed⟩]
     kind := .donut options },
    { title := "Running Apps"
      data := [⟨"Pending", m.appsPending⟩, ⟨"Running", m.appsRunning⟩]
      kind := .donut options },
    { title := "Nodes"
      data := [⟨"Active", m.activeNodes⟩, ⟨"Unhealthy", m.unhealthyNodes⟩,
        ⟨"Decommissioned", m.decommissionedNodes⟩]
      kind := .donut (options.withCenter "Active" m.activeNodes) }] ++
    Resource.all.map (resourceDonut m)

/-- The charts of the present snapshot. -/
def chartPlan (d : ClusterDashboard α) : List (PlannedChart α) := plan d.metrics

/-- The whole picture drawn anew. -/
def redraw (d : ClusterDashboard α) : ClusterDashboard α :=
  let (charts, grid) := renderPlan .category d.chartPlan { available := d.width, left := 0 }
  let height := Scalar.max leastHeight (grid.bottom + Panel.gap)
  { d with
    height
    scene := { width := d.width, height, layers := Backdrop.grid d.width height :: charts }
    generation := d.generation + 1 }

/-- The dashboard without a snapshot. -/
def new (width : α) : ClusterDashboard α :=
  redraw { width, metrics := .zero, tooltip := .fresh, height := leastHeight
           scene := { width := 0, height := 0 } }

/-- Another snapshot; the tooltip starts over. -/
def load (d : ClusterDashboard α) (metrics : ClusterMetrics α) : ClusterDashboard α :=
  redraw { d with metrics, tooltip := .fresh }

/-- The dashboard at another width; a difference nobody can see is none. -/
def resize (d : ClusterDashboard α) (width : α) : ClusterDashboard α :=
  if Scalar.epsilon < Scalar.abs (width - d.width) then redraw { d with width } else d

/-- The pointer moved over the canvas. -/
def pointerMoved (d : ClusterDashboard α) (pointer : Point α) : ClusterDashboard α :=
  { d with tooltip := d.tooltip.track d.scene pointer }

/-- The pointer left the canvas. -/
def pointerLeft (d : ClusterDashboard α) : ClusterDashboard α :=
  { d with tooltip := d.tooltip.leave }

end ClusterDashboard

end QueueBoard
