import QueueBoard.Chart.Panel
/-!
# Bar charts

Horizontal bars, one per datum from top to bottom. The widest one fills the room right of the
labels; no bar is narrower than three.
-/

namespace QueueBoard.Bar

variable {α : Type} [Scalar α] [Trig α]

/-- Height of every bar. -/
def barHeight : α := 30
/-- Width of the narrowest bar. -/
def leastWidth : α := 3
/-- Width kept free for labels unless a chart says otherwise. -/
def defaultLabelWidth : α := 50
/-- Room above the bars for the title. -/
def titleRoom : α := 30
/-- Space between the end of a bar and its value. -/
def valueOffset : α := 15

/-- Where a bar and its two texts are. -/
structure Placement (α : Type) where
  x : α
  y : α
  width : α
  height : α
  labelAt : Point α
  valueAt : Point α
  deriving Repr, DecidableEq

/-- The space between two bars that lets the last one end at the bottom; none for a single bar. -/
def gap (panel : Panel α) (n : Nat) : α :=
  if n < 2 then 0
  else
    let room := panel.height - 2 * panel.margin - titleRoom
    (room - Scalar.ofNat n * barHeight) / Scalar.ofNat (n - 1)

/-- The greatest magnitude, zero without data. -/
def greatest (data : List (Datum α)) : α :=
  (data.map Datum.magnitude).foldl Scalar.max 0

/-- The placements of all bars. -/
def placements (data : List (Datum α)) (panel : Panel α) (labelWidth : α) : List (Placement α) :=
  let top := greatest data
  let span := Scalar.max (panel.width - 2 * panel.margin - labelWidth) 0
  let gap := gap panel data.length
  let x := panel.x1 + panel.margin + labelWidth
  data.mapIdx fun i datum =>
    let y := panel.y1 + titleRoom + panel.margin + (gap + barHeight) * Scalar.ofNat i
    let middle := y + barHeight / 2
    let scaled := if 0 < top then datum.magnitude / top * span else 0
    { x, y
      width := Scalar.max scaled leastWidth
      height := barHeight
      labelAt := ⟨panel.x1 + panel.margin, middle⟩
      valueAt := ⟨x + valueOffset + scaled, middle⟩ }

/-- The label, the bar and the value of one datum. -/
def row (datum : Datum α) (bar : Placement α) (color : Rgb) : List (Element α) :=
  [(captionAt bar.labelAt datum.label .ink).role "bar-label",
    ((((Element.ofShape (.rect ⟨bar.x, bar.y⟩ bar.width bar.height)).fill color).role "bar").enter
      ⟨.growWidth, entrance⟩).bind datum,
    (captionAt bar.valueAt (Scalar.text datum.value) .ink).role "bar-value"]

/-- The layer of a bar chart in a panel. -/
def render (data : List (Datum α)) (title : String) (panel : Panel α) (labelWidth : α)
    (palette : Palette) : Layer α :=
  let base := panelLayer title panel
  let rows := (data.zip (placements data panel labelWidth)).mapIdx fun i (datum, bar) =>
    row datum bar (palette.color i)
  { base with elements := base.elements ++ rows.flatten }

end QueueBoard.Bar
