import QueueBoard.Chart.Plan
import QueueBoard.Scene
import QueueBoard.Queue.Layout
import QueueBoard.Scene.Tooltip
/-!
# The queue dashboard

The queue tree on the left and charts of the selected queue on the right. Every change of the width,
the palette, the tree, the folds or the selection draws the picture anew and counts a generation;
the pointer only recolors the tree, so entrances go on while it moves.
-/

namespace QueueBoard

variable {α : Type} [Scalar α] [Trig α]

/-- The state of the queue dashboard and the picture of it. -/
structure QueueDashboard (α : Type) where
  width : α
  palette : Palette
  tree : QueueTree α := {}
  folded : FoldedSet := {}
  selected : Option String := none
  hovered : Option String := none
  tooltip : TooltipController α
  layout : TreeLayout α := {}
  height : α
  scene : Scene α
  /-- Number of pictures drawn so far; hosts restart entrances when it grows. -/
  generation : Nat := 0
  deriving Repr, DecidableEq

namespace QueueDashboard

/-- Height kept per queue. -/
def rowPitch : α := 35
/-- Room for the labels of a queue's own capacities. -/
def capacityLabelWidth : α := 60

/-- The donut of a series of queues. -/
def queueDonut (title : String) (nodes : List (QueueNode α)) (value : QueueRecord α → α) :
    PlannedChart α :=
  { title, data := nodes.map fun n => ⟨n.name, value n.record⟩
    kind := .donut (Donut.Options.withSideLabels {}) }

/-- The bars of a queue's own capacities. -/
def capacityBars (record : QueueRecord α) : PlannedChart α :=
  { title := "Queue Capacities"
    data := [⟨"Cap", record.capacity⟩, ⟨"MaxCap", record.maxCapacity⟩,
      ⟨"UsedCap", record.usedCapacity⟩]
    kind := .bar capacityLabelWidth }

/-- The charts of one queue of a tree: of the whole cluster for the root, of its own capacities for
any other, then of its children if it lists some. -/
def plan (tree : QueueTree α) (queue : QueueNode α) : List (PlannedChart α) :=
  let own :=
    if queue.record.isRoot then
      queueDonut "LeafQueues Used Capacities" tree.leaves (·.usedCapacity)
    else capacityBars queue.record
  let children := tree.childrenOf queue
  own :: if queue.record.isLeaf then [] else
    [queueDonut "Children Capacities" children (·.capacity),
      queueDonut "Children Used Capacities" children (·.usedCapacity)]

/-- The charts of the selected queue; none if nothing of the tree is selected. -/
def chartPlan (d : QueueDashboard α) : List (PlannedChart α) :=
  match d.selected.bind d.tree.byName? with
  | none => []
  | some queue => plan d.tree queue

/-- The color of a queue's circle. -/
def nodeColor (d : QueueDashboard α) (name : String) : Rgb :=
  if d.selected == some name then d.palette.color 2
  else if d.hovered == some name then d.palette.color 1
  else d.palette.color 0

/-- The circle and the label of a visible queue; both mean the queue. -/
def nodeElements (d : QueueDashboard α) (node : PlacedNode α) : List (Element α) :=
  let target := .queue node.name
  [(((Element.ofShape (.circle node.position nodeRadius)).fill (d.nodeColor node.name)).role
      "queue").aim target,
    (((Element.ofShape (.label node.labelAt node.label)).fill .ink).role "queue").aim target]

/-- The layer of a placed tree: the connectors, then the queues. -/
def treeLayer (d : QueueDashboard α) (layout : TreeLayout α) : Layer α :=
  { id := "queues"
    elements := layout.connectors.map (fun c =>
        ((Element.ofShape (.path c.path)).stroke .connector 2).role "queue") ++
      layout.rows.flatMap d.nodeElements }

/-- High enough for the tree, and at least 16 by 9. -/
def leastHeight (d : QueueDashboard α) : α :=
  Scalar.max (Scalar.ofNat d.tree.size * rowPitch) (d.width * 9 / 16)

/-- The whole picture drawn anew. -/
def redraw (d : QueueDashboard α) : QueueDashboard α :=
  let layout := TreeLayout.compute d.tree d.folded
  let banner := layout.bannerWidth
  let (charts, grid) :=
    renderPlan d.palette d.chartPlan { available := d.width - banner, left := banner }
  let height := Scalar.max d.leastHeight (grid.bottom + Panel.gap)
  let rule := if d.tree.isEmpty then [] else [Backdrop.separator banner height]
  { d with
    layout, height
    scene :=
      { width := d.width, height
        layers := Backdrop.grid d.width height :: (rule ++ d.treeLayer layout :: charts) }
    generation := d.generation + 1 }

/-- The dashboard without a snapshot. -/
def new (width : α) : QueueDashboard α :=
  redraw
    { width, palette := .queues, tooltip := .fresh, height := 0
      scene := { width := 0, height := 0 } }

/-- The dashboard in other colors. -/
def withPalette (d : QueueDashboard α) (palette : Palette) : QueueDashboard α :=
  redraw { d with palette }

/-- Another snapshot. Folds, selection, hover and tooltip start over, the root selected if there is
one. -/
def load (d : QueueDashboard α) (records : List (QueueRecord α)) : QueueDashboard α :=
  let tree := QueueTree.build records
  redraw { d with
    tree, folded := {}, hovered := none, selected := tree.root?.map (·.name), tooltip := .fresh }

/-- Selects a name, whether or not it is a queue. -/
def select (d : QueueDashboard α) (name : String) : QueueDashboard α :=
  redraw { d with selected := some name }

/-- Folds or unfolds a queue that has something to fold; tells whether it did. -/
def toggleFold (d : QueueDashboard α) (name : String) : Bool × QueueDashboard α :=
  if d.tree.canFold name then (true, redraw { d with folded := d.folded.toggle name })
  else (false, d)

/-- The dashboard at another width; a difference nobody can see is none. -/
def resize (d : QueueDashboard α) (width : α) : QueueDashboard α :=
  if Scalar.epsilon < Scalar.abs (width - d.width) then redraw { d with width } else d

/-- The picture with the tree in its present colors. -/
def recolorTree (d : QueueDashboard α) : QueueDashboard α :=
  { d with scene := d.scene.replaceLayer (d.treeLayer d.layout) }

/-- The queue whose circle or label is on top at a point. -/
def queueAt (d : QueueDashboard α) (pointer : Point α) : Option String :=
  match d.scene.targetAt pointer with
  | some (.queue name) => some name
  | _ => none

/-- Marks another queue as hovered. -/
def hover (d : QueueDashboard α) (name : Option String) : QueueDashboard α :=
  if d.hovered == name then d else recolorTree { d with hovered := name }

/-- The pointer moved over the canvas. -/
def pointerMoved (d : QueueDashboard α) (pointer : Point α) : QueueDashboard α :=
  let d := d.hover (d.queueAt pointer)
  { d with tooltip := d.tooltip.track d.scene pointer }

/-- The pointer left the canvas. -/
def pointerLeft (d : QueueDashboard α) : QueueDashboard α :=
  { d with tooltip := d.tooltip.leave }.hover none

/-- Selects the queue under the pointer; tells its name. -/
def click (d : QueueDashboard α) (pointer : Point α) : Option String × QueueDashboard α :=
  match d.queueAt pointer with
  | none => (none, d)
  | some name => (some name, d.select name)

/-- Folds or unfolds the queue under the pointer; tells its name if that did anything. -/
def doubleClick (d : QueueDashboard α) (pointer : Point α) : Option String × QueueDashboard α :=
  match d.queueAt pointer with
  | none => (none, d)
  | some name =>
    let (changed, d) := d.toggleFold name
    (if changed then some name else none, d)

/-- The name of the row some rows below the selection, or above it if negative; the first and the
last row are as far as it goes. -/
def neighbor (d : QueueDashboard α) (offset : Int) : Option String :=
  let rows := d.layout.rows
  let current := (d.selected.bind fun s => rows.findIdx? (·.name == s)).getD 0
  let target := min ((current : Int) + offset).toNat (rows.length - 1)
  rows[target]?.map (·.name)

end QueueDashboard

end QueueBoard
