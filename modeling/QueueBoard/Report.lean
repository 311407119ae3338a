import QueueBoard.Chart.Plan
import QueueBoard.Json.Writer
import QueueBoard.Queue.Layout
import QueueBoard.Snapshot
import QueueBoard.Table
import QueueBoard.Text.Basic
import QueueBoard.Yaml.Writer
/-!
# Reports

What a command prints: the same findings as a table, as data and as plain lines. The format decides
which of the three is written, and in which notation the data are.
-/

namespace QueueBoard

/-- A notation for printed findings. -/
inductive Report.Format where
  | table
  | json
  | jsonCompact
  | yaml
  | plain
  deriving Repr, DecidableEq

/-- Findings in all three views. -/
structure Report where
  table : String
  data : Json
  plain : String

namespace Report

/-- The names of the formats. -/
def Format.names : List (String × Format) :=
  [("table", .table), ("json", .json), ("json-compact", .jsonCompact), ("yaml", .yaml),
    ("plain", .plain)]

/-- The format of a name. -/
def Format.named? (name : String) : Option Format := names.lookup name

/-- The format of a name in any case of its letters. -/
def Format.namedInAnyCase? (name : String) : Option Format :=
  named? (String.ofList (name.toList.map Char.toLower))

/-- The report in a format. -/
def text (r : Report) : Format → String
  | .table => r.table
  | .json => r.data.pretty
  | .jsonCompact => r.data.compact
  | .yaml => Yaml.document r.data
  | .plain => r.plain

/-- A report on a list: one row, one item and one line for each entry. -/
def ofList {β : Type} (header : List String) (row : β → List String) (data : β → Json)
    (line : β → String) (entries : List β) : Report where
  table := Table.text ⟨header, entries.map row⟩
  data := .array (entries.map data)
  plain := "\n".intercalate (entries.map line)

/-! ## Reports on queues -/

/-- A percentage with one decimal place. -/
def percentText (x : Float) : String := Decimal.fixed 1 x ++ "%"

/-- The cells of a queue. -/
def queueRow (r : QueueRecord Float) : List String :=
  [r.name, r.parent.getD "", toString r.children.length, percentText r.capacity,
    percentText r.maxCapacity, percentText r.usedCapacity, percentText r.absUsedCapacity,
    r.state.getD ""]

/-- The queues of a snapshot. -/
def ofQueues (records : List (QueueRecord Float)) : Report :=
  .ofList ["Name", "Parent", "Children", "Cap", "MaxCap", "UsedCap", "Abs Used", "State"] queueRow
    Snapshot.ofQueueRecord (·.name) records

/-- The cells of a placed queue: its label is indented by its depth. -/
def nodeRow (n : PlacedNode Float) : List String :=
  [String.join (List.replicate n.depth "  ") ++ n.label, toString n.depth,
    Scalar.text n.position.x, Scalar.text n.position.y]

/-- The data of a placed queue. -/
def nodeData (n : PlacedNode Float) : Json :=
  .object [("id", .natural n.id), ("name", .string n.name),
    ("position", .object [("x", .float n.position.x), ("y", .float n.position.y)]),
    ("depth", .natural n.depth), ("sequence", .natural n.sequence), ("folded", .boolean n.folded),
    ("has_children", .boolean n.hasChildren)]

/-- The places of the visible queues. -/
def ofLayout (layout : TreeLayout Float) : Report :=
  .ofList ["Queue", "Depth", "X", "Y"] nodeRow nodeData (·.name) layout.rows

/-- The cells of a chart. -/
def chartRow (c : PlannedChart.Summary) : List String := [c.title, c.kind, toString c.series]

/-- The data of a chart. -/
def chartData (c : PlannedChart.Summary) : Json :=
  .object [("title", .string c.title), ("kind", .string c.kind), ("series", .natural c.series)]

/-- The charts of a plan. -/
def ofPlan (plan : List (PlannedChart Float)) : Report :=
  .ofList ["Title", "Kind", "Series"] chartRow chartData (·.title) (plan.map PlannedChart.summary)

/-! ## Reports on the cluster -/

/-- The rows of a chart: one for each value, the title in the first one only. -/
def seriesRows (chart : PlannedChart Float) : List (List String) :=
  chart.data.mapIdx fun i d =>
    [if i == 0 then chart.title else "", d.label, Scalar.text d.value]

/-- The lines of a chart: the full name of each value and the value. -/
def seriesLines (chart : PlannedChart Float) : List String :=
  chart.data.map fun d => chart.title ++ "." ++ d.label ++ "=" ++ Scalar.text d.value

/-- The metrics of a cluster, grouped as on the charts that show them. -/
def ofCluster (metrics : ClusterMetrics Float) (plan : List (PlannedChart Float)) : Report where
  table := Table.text ⟨["Chart", "Series", "Value"], plan.flatMap seriesRows⟩
  data := Snapshot.ofMetrics metrics
  plain := String.ofList (Text.trimEnd ("\n".intercalate (plan.flatMap seriesLines)).toList)

end Report

end QueueBoard
