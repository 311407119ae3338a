import QueueBoard.Chart.Bar
import QueueBoard.Chart.Donut
/-!
# Chart plans

A dashboard first decides which charts it wants; a plan is that list. Rendering a plan gives every
chart the next panel of the grid and a layer of its own, in the order of the plan.
-/

namespace QueueBoard

variable {α : Type} [Scalar α] [Trig α]

/-- The form of a chart. -/
inductive ChartKind (α : Type) where
  /-- Horizontal bars, the labels taking up the given width. -/
  | bar (labelWidth : α)
  | donut (options : Donut.Options α)
  deriving Repr, DecidableEq

namespace ChartKind

/-- Bars with the usual room for labels. -/
def regularBar : ChartKind α := .bar Bar.defaultLabelWidth

/-- The word for the form. -/
def name : ChartKind α → String
  | .bar _ => "bar"
  | .donut _ => "donut"

end ChartKind

/-- A chart without a place yet. -/
structure PlannedChart (α : Type) where
  title : String
  data : List (Datum α)
  kind : ChartKind α
  deriving Repr, DecidableEq

namespace PlannedChart

/-- What a list of charts tells about one of them. -/
structure Summary where
  title : String
  kind : String
  series : Nat
  deriving Repr, BEq, DecidableEq

/-- The title, the form and the number of values. -/
def summary (c : PlannedChart α) : Summary := ⟨c.title, c.kind.name, c.data.length⟩

/-- The layer of a chart in a panel. -/
def render (c : PlannedChart α) (panel : Panel α) (palette : Palette) : Layer α :=
  match c.kind with
  | .bar labelWidth => Bar.render c.data c.title panel labelWidth palette
  | .donut options => Donut.render c.data c.title panel options palette

end PlannedChart

/-- The layers of a plan in the next panels of a grid, and the grid after them. -/
def renderPlan (palette : Palette) :
    List (PlannedChart α) → PanelGrid α → List (Layer α) × PanelGrid α
  | [], grid => ([], grid)
  | chart :: rest, grid =>
    let (panel, grid) := grid.allocate
    let (layers, grid) := renderPlan palette rest grid
    (chart.render panel palette :: layers, grid)

end QueueBoard
