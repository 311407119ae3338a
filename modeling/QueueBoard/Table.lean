import QueueBoard.Text.Cluster
/-!
# Tables

A table drawn with lines and round corners. Columns are as wide as their widest cell, cells are
left-aligned with one blank at both sides, and a cell with line breaks takes several lines.
-/

namespace QueueBoard

/-- A table: the names of its columns, and the rows of cells below them. -/
structure Table where
  header : List String
  rows : List (List String)
  deriving Repr, DecidableEq

namespace Table

/-- The lines of a cell. -/
def cellLines (cell : String) : List String := cell.splitOn "\n"

/-- Columns of the terminal that a cell needs. -/
def cellColumns (cell : String) : Nat :=
  (cellLines cell).foldl (fun width line => max width (Text.columns line.toList)) 0

/-- The width of each column: that of its widest cell. -/
def widths (t : Table) : List Nat :=
  t.rows.foldl (fun widths row => List.zipWith (fun w cell => max w (cellColumns cell)) widths row)
    (t.header.map cellColumns)

/-- A number of copies of a character. -/
def run (n : Nat) (c : Char) : String := String.ofList (List.replicate n c)

/-- A horizontal line between corners or crossings. -/
def rule (left between right : String) (widths : List Nat) : String :=
  left ++ between.intercalate (widths.map fun w => run (w + 2) '─') ++ right

/-- A line of a cell with its blanks. -/
def padded (width : Nat) (line : String) : String :=
  " " ++ line ++ run (width - Text.columns line.toList) ' ' ++ " "

/-- The lines of a row: as many as its highest cell has. -/
def rowLines (widths : List Nat) (row : List String) : List String :=
  let cells := row.map cellLines
  let height := cells.foldl (fun h lines => max h lines.length) 0
  (List.range height).map fun i =>
    "│" ++
      "│".intercalate (List.zipWith (fun w lines => padded w (lines.getD i "")) widths cells) ++
      "│"

/-- The lines of the drawing. A table without rows has no line at the bottom. -/
def lines (t : Table) : List String :=
  let widths := t.widths
  [rule "╭" "┬" "╮" widths] ++ rowLines widths t.header ++ [rule "├" "┼" "┤" widths] ++
    t.rows.flatMap (rowLines widths) ++
    (if t.rows.isEmpty then [] else [rule "╰" "┴" "╯" widths])

/-- The drawing. -/
def text (t : Table) : String := "\n".intercalate t.lines

end Table

end QueueBoard
