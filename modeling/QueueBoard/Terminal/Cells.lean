import QueueBoard.Terminal.Area
import QueueBoard.Text.Cluster
/-!
# Cells

What a terminal shows: a rectangle of cells with a short text in each. A text of two columns stands
in the first of its cells and a blank in the second.
-/

namespace QueueBoard.Terminal

/-- A terminal's cells, row by row. -/
structure Cells where
  columns : Nat
  rows : Array (Array String)
  deriving Repr

namespace Cells

/-- Cells with nothing in them. -/
def blank (columns rows : Nat) : Cells :=
  ⟨columns, Array.replicate rows (Array.replicate columns " ")⟩

/-- All cells as an area. -/
def area (c : Cells) : Area := { width := c.columns, height := c.rows.size }

/-- One cell changed. -/
def modify (c : Cells) (column row : Nat) (change : String → String) : Cells :=
  { c with rows := c.rows.modify row fun line => line.modify column change }

/-- One cell filled. -/
def put (c : Cells) (column row : Nat) (text : String) : Cells := c.modify column row fun _ => text

/-- A run of cells of one row filled with the same text. -/
def fillRow (c : Cells) (column row width : Nat) (text : String) : Cells :=
  (List.range width).foldl (fun c i => c.put (column + i) row text) c

/-- The cells of an area filled with the same text. -/
def fill (c : Cells) (a : Area) (text : String) : Cells :=
  (List.range a.height).foldl (fun c i => c.fillRow a.x (a.y + i) a.width text) c

/-- The cells of an area emptied. -/
def clear (c : Cells) (a : Area) : Cells := c.fill a " "

/-- Whether a character only controls the terminal. -/
def isControl (ch : Char) : Bool := ch.toNat < 0x20 || (0x7F ≤ ch.toNat && ch.toNat ≤ 0x9F)

/-- The clusters of a text that can be shown. -/
def visible (text : String) : List (List Char) :=
  (Text.clusters text.toList).filter fun cluster => !cluster.any isControl

/-- Clusters written from a column on, as long as they end before `limit`. -/
def writeClusters (c : Cells) (column row limit : Nat) : List (List Char) → Cells
  | [] => c
  | cluster :: rest =>
    let width := Text.clusterColumns cluster
    if width == 0 then
      -- what takes no room belongs to the cell before it
      let c := if column == 0 then c else c.modify (column - 1) row (· ++ String.ofList cluster)
      writeClusters c column row limit rest
    else if column + width ≤ limit then
      let c := (c.put column row (String.ofList cluster)).fillRow (column + 1) row (width - 1) " "
      writeClusters c (column + width) row limit rest
    else c

/-- A text in a row, up to the end of an area. Clusters without width are left out. -/
def write (c : Cells) (column row limit : Nat) (text : String) : Cells :=
  c.writeClusters column row limit ((visible text).filter fun cluster =>
    Text.clusterColumns cluster != 0)

/-- A text in the first row of an area, made of parts that stay apart. A cluster that is wider than
the area is left out. -/
def writeLine (c : Cells) (a : Area) (parts : List String) : Cells :=
  if a.isEmpty then c
  else
    let clusters := (parts.flatMap visible).filter fun cluster =>
      let width := Text.clusterColumns cluster
      width != 0 && width ≤ a.width
    c.writeClusters a.x a.y a.right clusters

/-- Texts in the rows of an area. -/
def writeLines (c : Cells) (a : Area) : List (List String) → Cells
  | [] => c
  | line :: rest =>
    if a.isEmpty then c
    else (c.writeLine a line).writeLines { a with y := a.y + 1, height := a.height - 1 } rest

/-- A border with round corners. -/
def border (c : Cells) (a : Area) : Cells :=
  if a.isEmpty then c
  else
    let (left, right) := (a.x, a.right - 1)
    let (top, bottom) := (a.y, a.bottom - 1)
    let c := c.fill { a with width := 1 } "│"
    let c := c.fillRow left top a.width "─"
    let c := c.fill { a with x := right, width := 1 } "│"
    let c := c.fillRow left bottom a.width "─"
    (((c.put right bottom "╯").put right top "╮").put left bottom "╰").put left top "╭"

/-- A border with a title in its first line, a blank on both sides of it. -/
def panel (c : Cells) (a : Area) (title : String) : Cells :=
  let c := c.border a
  if a.isEmpty then c
  else c.writeClusters (a.x + 1) a.y (a.right - 1) (visible (" " ++ title ++ " "))

/-- The rows as texts. -/
def lines (c : Cells) : List String := c.rows.toList.map fun row => String.join row.toList

end Cells

end QueueBoard.Terminal
