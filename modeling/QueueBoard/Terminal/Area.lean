/-!
# Areas of the terminal

Rectangles of cells. Columns and rows are numbers of 16 bits; an area that would go further ends
there.
-/

namespace QueueBoard.Terminal

/-- The greatest column and row. -/
def maxCell : Nat := 65535

/-- A rectangle of cells. -/
structure Area where
  x : Nat := 0
  y : Nat := 0
  width : Nat := 0
  height : Nat := 0
  deriving Repr, BEq, DecidableEq, Inhabited

namespace Area

/-- The column after the last one. -/
def right (a : Area) : Nat := min (a.x + a.width) maxCell

/-- The row after the last one. -/
def bottom (a : Area) : Nat := min (a.y + a.height) maxCell

/-- Whether a cell lies in the area. -/
def contains (a : Area) (column row : Nat) : Bool :=
  a.x ≤ column && column < a.right && a.y ≤ row && row < a.bottom

/-- Whether there is no cell in it. -/
def isEmpty (a : Area) : Bool := a.width == 0 || a.height == 0

/-- What a border of one cell leaves. -/
def inner (a : Area) : Area where
  x := min (a.x + 1) a.right
  y := min (a.y + 1) a.bottom
  width := a.width - 2
  height := a.height - 2

/-- The area's upper part of a height, and what is below it. -/
def splitAt (a : Area) (height : Nat) : Area × Area :=
  let upper := min height a.height
  ({ a with height := upper }, { a with y := a.y + upper, height := a.height - upper })

/-- The area without its last line, and that line. A single line goes to the first part. -/
def splitLastLine (a : Area) : Area × Area := a.splitAt (max 1 (a.height - 1))

end Area

end QueueBoard.Terminal
