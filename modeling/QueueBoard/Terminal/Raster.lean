import QueueBoard.Terminal.Cells
import QueueBoard.Terminal.Stroke
import QueueBoard.Terminal.Viewport
/-!
# The picture on the terminal

A cell has two by four dots. Segments are clipped to what is visible and drawn dot by dot; a cell
with dots becomes the pattern of them. Labels are written over all segments.

A screen is a panel with a title around such a picture; its last line tells the keys.
-/

namespace QueueBoard.Terminal

variable {α : Type} [Scalar α] [Trig α]

/-- The visible part of a scene. -/
structure Window (α : Type) where
  width : α
  top : α
  bottom : α
  deriving Repr

namespace Window

/-- What an area shows of a scene. -/
def ofViewport (v : Viewport α) (area : Area) : Window α where
  width := Viewport.sceneWidth area.width
  top := v.scroll
  bottom := v.scroll + Viewport.visibleHeight area

/-- On which sides of the window a point is. -/
structure Outside where
  left : Bool
  right : Bool
  below : Bool
  above : Bool

/-- The sides on which a point is outside. -/
def outside (w : Window α) (p : Point α) : Outside where
  left := p.x < 0
  right := !(p.x < 0 : Bool) && (w.width < p.x : Bool)
  below := w.bottom < p.y
  above := !(w.bottom < p.y : Bool) && (p.y < w.top : Bool)

/-- Whether a point is outside on any side. -/
def Outside.any (o : Outside) : Bool := o.left || o.right || o.below || o.above

/-- Whether two points are outside on the same side. -/
def Outside.shares (o o' : Outside) : Bool :=
  (o.left && o'.left) || (o.right && o'.right) || (o.below && o'.below) || (o.above && o'.above)

/-- A point moved towards another onto the first side it is outside of. -/
def pull (w : Window α) (o : Outside) (p q : Point α) : Point α :=
  let dx := q.x - p.x
  let dy := q.y - p.y
  if o.left then ⟨0, p.y + (0 - p.x) * dy / dx⟩
  else if o.right then ⟨w.width, p.y + (w.width - p.x) * dy / dx⟩
  else if o.below then ⟨p.x + (w.bottom - p.y) * dx / dy, w.bottom⟩
  else if o.above then ⟨p.x + (w.top - p.y) * dx / dy, w.top⟩
  else p

/-- The part of a segment inside the window. Each step brings one end onto a side, so few are
needed. -/
def clip (w : Window α) : (fuel : Nat) → Point α → Point α → Option (Point α × Point α)
  | 0, _, _ => none
  | fuel + 1, p, q =>
    let o := w.outside p
    let o' := w.outside q
    if o.shares o' then none
    else if o.any then w.clip fuel (w.pull o p q) q
    else if o'.any then w.clip fuel p (w.pull o' q p)
    else some (p, q)

/-- The dot of a point inside the window, on so many dots across and down. -/
def dotOf (w : Window α) (across down : Nat) (p : Point α) : Option (Nat × Nat) :=
  if (w.outside p).any then none
  else
    some (Scalar.round (p.x * Scalar.ofNat (across - 1) / w.width),
      Scalar.round ((p.y - w.top) * Scalar.ofNat (down - 1) / (w.bottom - w.top)))

/-- The cell where a label starts, on so many columns and rows. -/
def cellOf (w : Window α) (columns rows : Nat) (p : Point α) : Option (Nat × Nat) :=
  if (w.outside p).any then none
  else
    some (Scalar.toNat (p.x * Scalar.ofNat (columns - 1) / w.width),
      Scalar.toNat ((p.y - w.top) * Scalar.ofNat (rows - 1) / (w.bottom - w.top)))

end Window

/-- A number one step nearer to another. -/
def stepTowards (n target : Nat) : Nat := if target < n then n - 1 else n + 1

/-- The dots of a line that is longer along its first axis, from the first number on that axis:
`rise` and `run` are the extents of the line. -/
def slanted (run rise : Nat) (target : Nat) : (count : Nat) → (along across : Nat) → (d : Int) →
    List (Nat × Nat)
  | 0, _, _, _ => []
  | count + 1, along, across, d =>
    let (next, d') :=
      if 0 < d then (stepTowards across target, d - 2 * (run : Int)) else (across, d)
    (along, across) :: slanted run rise target count (along + 1) next (d' + 2 * (rise : Int))

/-- The dots of a line longer along its first axis than along its second, starting at the smaller
number on the first. -/
def slantedFrom (p q : Nat × Nat) : List (Nat × Nat) :=
  let (p, q) := if q.1 < p.1 then (q, p) else (p, q)
  let run := q.1 - p.1
  let rise := max p.2 q.2 - min p.2 q.2
  slanted run rise q.2 (run + 1) p.1 p.2 (2 * (rise : Int) - (run : Int))

/-- The dots of a line between two dots. -/
def lineDots (p q : Nat × Nat) : List (Nat × Nat) :=
  let dx := max p.1 q.1 - min p.1 q.1
  let dy := max p.2 q.2 - min p.2 q.2
  if dx == 0 then (List.range (dy + 1)).map fun i => (p.1, min p.2 q.2 + i)
  else if dy == 0 then (List.range (dx + 1)).map fun i => (min p.1 q.1 + i, p.2)
  else if dy < dx then slantedFrom p q
  else (slantedFrom (p.2, p.1) (q.2, q.1)).map fun (y, x) => (x, y)

/-- The weight of a dot within its cell's pattern. -/
def dotWeight (x y : Nat) : Nat :=
  match x, y with
  | 0, 0 => 0x01
  | 0, 1 => 0x02
  | 0, 2 => 0x04
  | 0, _ => 0x40
  | _, 0 => 0x08
  | _, 1 => 0x10
  | _, 2 => 0x20
  | _, _ => 0x80

/-- Patterns of dots, cell by cell. -/
structure Dots where
  columns : Nat
  patterns : Array Nat

namespace Dots

/-- No dots. -/
def none (area : Area) : Dots := ⟨area.width, Array.replicate (area.width * area.height) 0⟩

/-- One more dot. -/
def paint (d : Dots) (x y : Nat) : Dots :=
  if x / 2 < d.columns then
    { d with
      patterns :=
        d.patterns.modify (y / 4 * d.columns + x / 2) (· ||| dotWeight (x % 2) (y % 4)) }
  else d

/-- The dots of a segment added. -/
def segment (d : Dots) (w : Window α) (area : Area) (start finish : Point α) : Dots :=
  let drawn := do
    let (p, q) ← w.clip 64 start finish
    let p ← w.dotOf (2 * area.width) (4 * area.height) p
    let q ← w.dotOf (2 * area.width) (4 * area.height) q
    return lineDots p q
  (drawn.getD []).foldl (fun d (x, y) => d.paint x y) d

/-- The character of a pattern. -/
def symbol (pattern : Nat) : String := String.singleton (Char.ofNat (0x2800 + pattern))

/-- The patterns put into the cells of an area; a cell without dots stays as it is. -/
def draw (d : Dots) (area : Area) (cells : Cells) : Cells :=
  (List.range area.height).foldl (fun cells row =>
    (List.range area.width).foldl (fun cells column =>
      let pattern := d.patterns.getD (row * d.columns + column) 0
      if pattern == 0 then cells else cells.put (area.x + column) (area.y + row) (symbol pattern))
      cells) cells

end Dots

/-- A label written where it belongs. -/
def drawLabel (w : Window α) (area : Area) (position : Point α) (text : String) (cells : Cells) :
    Cells :=
  match w.cellOf area.width area.height position with
  | some (column, row) => cells.write (area.x + column) (area.y + row) area.right text
  | none => cells

/-- A scene drawn into an area, some time after it came. -/
def drawScene (scene : Scene α) (elapsed : Duration) (v : Viewport α) (area : Area)
    (cells : Cells) :
    Cells :=
  if area.isEmpty then cells
  else
    let w := Window.ofViewport v area
    let strokes := sceneStrokes scene elapsed
    let dots := strokes.foldl (fun (d : Dots) stroke =>
      match stroke.1 with
      | .segment start finish => d.segment w area start finish
      | .label _ _ => d) (Dots.none area)
    strokes.foldl (fun cells stroke =>
      match stroke.1 with
      | .label position text => drawLabel w area position text cells
      | .segment _ _ => cells) (dots.draw area cells)

/-! ## What is around a picture -/

/-- A key and what it does. -/
abbrev Hint := String × String

/-- The canvas of a panel. -/
def canvasOf (area : Area) : Area := area.inner.splitLastLine.1

/-- A panel with a title and hints drawn into an area. -/
def drawChrome (cells : Cells) (area : Area) (title : String) (hints : List Hint) : Cells :=
  (cells.panel area title).writeLine area.inner.splitLastLine.2
    (hints.flatMap fun (key, what) => ["  " ++ key ++ " ", what])

/-- What stands in for a picture that is not there yet. -/
def drawPlaceholder (cells : Cells) (canvas : Area) (message : String) : Cells :=
  cells.writeLine canvas ["  " ++ message]

/-- A tooltip over a picture: its cells are emptied, then the text is written. -/
def drawTooltip (cells : Cells) (canvas : Area) (tooltip : Tooltip α) (viewport : Viewport α) :
    Cells :=
  match viewport.placement tooltip canvas with
  | none => cells
  | some place => (cells.clear place).writeLine place [" " ++ tooltip.text ++ " "]

end QueueBoard.Terminal
