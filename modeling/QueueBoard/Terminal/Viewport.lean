import QueueBoard.Scene.Tooltip
import QueueBoard.Terminal.Area
import QueueBoard.Terminal.Input
/-!
# The viewport

A scene may be taller than the terminal; the viewport is how far it is scrolled. A cell stands for 8
by 16 points of the scene, the cell's center for all of them when the pointer is on it.
-/

namespace QueueBoard.Terminal

variable {α : Type} [Scalar α] [Trig α]

/-- The width of a cell in the scene. -/
def cellWidth : α := 8
/-- The height of a cell in the scene. -/
def cellHeight : α := 16

/-- How far the wheel scrolls: three lines. -/
def wheelStep : α := cellHeight * 3

/-- How far a scene is scrolled. -/
structure Viewport (α : Type) where
  scroll : α
  deriving Repr, DecidableEq

namespace Viewport

/-- Nothing scrolled. -/
def top : Viewport α := ⟨0⟩

/-- The width of a scene that fills so many columns. -/
def sceneWidth (columns : Nat) : α := Scalar.ofNat columns * cellWidth

/-- The height of the part of a scene that an area shows. -/
def visibleHeight (area : Area) : α := Scalar.ofNat area.height * cellHeight

/-- The point at the center of a cell, if the cell is in the area. -/
def toScene (v : Viewport α) (area : Area) (column row : Nat) : Option (Point α) :=
  if area.contains column row then
    some ⟨Scalar.ofNat (column - area.x) * cellWidth + cellWidth / 2,
      v.scroll + Scalar.ofNat (row - area.y) * cellHeight + cellHeight / 2⟩
  else none

/-- The cell that shows a point, if it is in the area. -/
def toCell (v : Viewport α) (area : Area) (p : Point α) : Option (Nat × Nat) :=
  let column : α := Scalar.floor (p.x / cellWidth)
  let row : α := Scalar.floor ((p.y - v.scroll) / cellHeight)
  if column < 0 ∨ row < 0 ∨ Scalar.ofNat area.width ≤ column ∨ Scalar.ofNat area.height ≤ row then
    none
  else some (area.x + Scalar.toNat column, area.y + Scalar.toNat row)

/-- The viewport moved down; it stays within a scene of the given height. -/
def scrollBy (v : Viewport α) (delta sceneHeight : α) (area : Area) : Viewport α :=
  ⟨Scalar.clamp (v.scroll + delta) 0 (Scalar.max (sceneHeight - visibleHeight area) 0)⟩

/-- How far a key scrolls: half of what is visible, or a line. Other keys do not scroll. -/
def scrollStep? (key : Key) (area : Area) : Option α :=
  let page : α := visibleHeight area / 2
  match key.code, key.modifiers with
  | .pageDown, _ | .char 'd', ⟨false, true, false⟩ => some page
  | .pageUp, _ | .char 'u', ⟨false, true, false⟩ => some (-page)
  | .char 'J', ⟨_, false, false⟩ => some cellHeight
  | .char 'K', ⟨_, false, false⟩ => some (-cellHeight)
  | _, _ => none

/-- The viewport after a key, if the key scrolls. -/
def scrollKey (v : Viewport α) (key : Key) (sceneHeight : α) (area : Area) : Option (Viewport α) :=
  (scrollStep? key area).map fun delta => v.scrollBy delta sceneHeight area

/-- Where a tooltip goes: a line of its own, starting at the pointer's column or as far to the left
as it takes to fit. One that floats above the visible part goes to its first line. -/
def placement (v : Viewport α) (tooltip : Tooltip α) (area : Area) : Option Area :=
  if !tooltip.isVisible then none
  else
    let anchor : Point α := ⟨tooltip.position.x, Scalar.max tooltip.position.y v.scroll⟩
    (v.toCell area anchor).map fun (column, row) =>
      let width := min (min (tooltip.text.length + 2) maxCell) area.width
      { x := max (min column (area.right - width)) area.x, y := row, width, height := 1 }

end Viewport

/-- The width of a scene inside a border on a terminal of so many columns. -/
def canvasWidth (columns : Nat) : α := Viewport.sceneWidth (columns - 2)

end QueueBoard.Terminal
