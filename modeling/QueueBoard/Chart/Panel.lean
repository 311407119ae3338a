import QueueBoard.Scene
/-!
# Panels

Charts sit in panels of 400 by 300 with gaps of 30 between them, filled row by row into the width
right of the tree.
-/

namespace QueueBoard

variable {α : Type} [Scalar α] [Trig α]

/-- The place of one chart. -/
structure Panel (α : Type) where
  x1 : α
  y1 : α
  x2 : α
  y2 : α
  id : Nat
  /-- Padding that renderers keep inside. -/
  margin : α
  deriving Repr, DecidableEq

namespace Panel

/-- Width of every panel of the grid. -/
def gridWidth : α := 400
/-- Height of every panel of the grid. -/
def gridHeight : α := 300
/-- Space between panels and before the first. -/
def gap : α := 30

/-- The width of a panel. -/
def width (p : Panel α) : α := p.x2 - p.x1

/-- The height of a panel. -/
def height (p : Panel α) : α := p.y2 - p.y1

/-- The middle between the left and the right edge. -/
def centerX (p : Panel α) : α := (p.x1 + p.x2) / 2

/-- Whether two panels share some of their inside. -/
def overlaps (p q : Panel α) : Bool :=
  p.x1 < q.x2 && q.x1 < p.x2 && p.y1 < q.y2 && q.y1 < p.y2

/-- How many panels fit side by side, at least one. -/
def perRow (available : α) : Nat :=
  let fit := Scalar.floor (available / (gridWidth + gap))
  if !Scalar.isFinite fit || fit < 1 then 1 else max (Scalar.toNat fit) 1

/-- The panel of an index in the grid over a width, starting at a left edge. -/
def place (index : Nat) (available left : α) : Panel α :=
  let columns := perRow available
  let row : α := Scalar.ofNat (index / columns)
  let column : α := Scalar.ofNat (index % columns)
  let x1 := left + (column + 1) * gap + column * gridWidth
  let y1 := (row + 1) * gap + row * gridHeight
  { x1, y1, x2 := x1 + gridWidth, y2 := y1 + gridHeight, id := index, margin := 10 }

end Panel

/-- Hands out the panels of a grid one after another. -/
structure PanelGrid (α : Type) where
  available : α
  left : α
  allocated : Nat := 0
  deriving Repr, DecidableEq

namespace PanelGrid

/-- The next panel, and the grid after it. -/
def allocate (g : PanelGrid α) : Panel α × PanelGrid α :=
  (Panel.place g.allocated g.available g.left, { g with allocated := g.allocated + 1 })

/-- The bottom edge of the lowest panel handed out so far. -/
def bottom (g : PanelGrid α) : α :=
  match g.allocated with
  | 0 => 0
  | last + 1 => (Panel.place last g.available g.left).y2

end PanelGrid

/-- Font size of chart titles. -/
def titleSize : α := 14

/-- The layer of a chart before its series: the title and the frame. -/
def panelLayer (title : String) (panel : Panel α) : Layer α :=
  { id := "chart-" ++ toString panel.id
    elements := [
      (((Element.ofShape (.label ⟨panel.centerX, panel.y1 + panel.margin + 20⟩ title)).anchor
        .middle).fontSize titleSize).fill .ink |>.role "chart-title",
      ((Element.ofShape (.rect ⟨panel.x1, panel.y1⟩ panel.width panel.height)).stroke .frame
        1).role "chart-frame"] }

/-- A text in a color. -/
def captionAt (position : Point α) (text : String) (color : Rgb) : Element α :=
  (Element.ofShape (.label position text)).fill color

end QueueBoard
