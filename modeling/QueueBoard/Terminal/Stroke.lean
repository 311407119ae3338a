import QueueBoard.Scene
/-!
# Strokes

A terminal draws lines and texts only. Every shape becomes strokes; a filled one is hatched with
strokes one dot apart.
-/

namespace QueueBoard.Terminal

variable {α : Type} [Scalar α] [Trig α]

/-- The size of a dot in the scene. -/
def dot : α := 4

/-- What can be drawn. -/
inductive Stroke (α : Type) where
  | segment (start finish : Point α)
  | label (position : Point α) (text : String)
  deriving Repr, DecidableEq

namespace Stroke

/-- Into how many parts of at most one dot a length is cut; at least one. -/
def steps (length : α) : Nat :=
  let n := Scalar.ceil (length / dot)
  if !Scalar.isFinite n || n < 1 then 1 else Scalar.toNat n

/-- The part `i` of `n`. -/
def part (i n : Nat) : α := Scalar.ofNat i / Scalar.ofNat n

/-- The segments between neighbouring points. -/
def polyline (points : List (Point α)) : List (Stroke α) :=
  List.zipWith segment points points.tail

/-- The numbers from 1 to below `n`. -/
def inner (n : Nat) : List Nat := (List.range (n - 1)).map (· + 1)

/-- The outline of a rectangle. -/
def outline (origin : Point α) (width height : α) : List (Stroke α) :=
  let right := origin.x + width
  let bottom := origin.y + height
  polyline [⟨origin.x, origin.y⟩, ⟨right, origin.y⟩, ⟨right, bottom⟩, ⟨origin.x, bottom⟩,
    ⟨origin.x, origin.y⟩]

/-- The lines across a rectangle. -/
def hatching (origin : Point α) (width height : α) : List (Stroke α) :=
  let n := steps height
  (inner n).map fun i =>
    let y := origin.y + height * part i n
    segment ⟨origin.x, y⟩ ⟨origin.x + width, y⟩

/-- The points around a circle; at least eight parts. -/
def ring (center : Point α) (radius : α) : List (Point α) :=
  let n := max (steps (Trig.tau * radius)) 8
  (List.range (n + 1)).map fun i =>
    let angle := Trig.tau * part i n
    ⟨center.x + radius * Trig.cos angle, center.y + radius * Trig.sin angle⟩

/-- The circles inside a circle. -/
def innerRings (center : Point α) (radius : α) : List (Stroke α) :=
  let n := steps radius
  (inner n).flatMap fun i => polyline (ring center (radius * part i n))

/-- The angle a part of the way through a sector. -/
def angleAt (s : Sector α) (i n : Nat) : α := s.start + s.span * part i n

/-- The points along a sector's arc. -/
def arc (s : Sector α) (radius : α) : List (Point α) :=
  let n := steps (s.span * radius)
  (List.range (n + 1)).map fun i => s.pointAt radius (angleAt s i n)

/-- The line across a sector's ring at an angle. -/
def spoke (s : Sector α) (angle : α) : Stroke α :=
  segment (s.pointAt s.inner angle) (s.pointAt s.outer angle)

/-- The spokes inside a sector. -/
def innerSpokes (s : Sector α) : List (Stroke α) :=
  let n := steps (s.span * s.outer)
  (inner n).map fun i => spoke s (angleAt s i n)

/-- The strokes of a shape. -/
def ofShape (shape : Shape α) (filled : Bool) : List (Stroke α) :=
  match shape with
  | .line start finish => [segment start finish]
  | .rect origin width height =>
    if width ≤ 0 ∨ height ≤ 0 then []
    else outline origin width height ++ if filled then hatching origin width height else []
  | .circle center radius =>
    polyline (ring center radius) ++ if filled then innerRings center radius else []
  | .path path => polyline (path.flatten 12)
  | .sector s =>
    if s.span ≤ 0 then []
    else
      polyline (arc s s.outer) ++ polyline (arc s s.inner) ++ [spoke s s.start, spoke s s.finish] ++
        if filled then innerSpokes s else []
  | .text run =>
    let bounds := run.bounds
    [label ⟨bounds.left, bounds.top + bounds.height / 2⟩ run.text]

end Stroke

/-- The color of text on the terminal. -/
def textColor : Rgb := ⟨189, 193, 207⟩

/-- The color of what is nearly white in the scene. -/
def paleColor : Rgb := ⟨60, 62, 74⟩

/-- A color of the scene on a dark terminal: what is nearly white is dimmed, what is nearly black is
lightened. -/
def sceneColor (c : Rgb) : Rgb :=
  let all := fun (test : UInt8 → Bool) => test c.red && test c.green && test c.blue
  if all (235 < ·) then paleColor
  else if all (· < 80) then textColor
  else c

/-- The strokes of an element some time after it came, with their colors. -/
def elementStrokes (e : Element α) (elapsed : Duration) : List (Stroke α × Rgb) :=
  let shape := e.sampledShape elapsed
  let painted := fun (filled : Bool) (color : Rgb) =>
    (Stroke.ofShape shape filled).map fun s => (s, sceneColor color)
  match shape with
  | .text _ =>
    match e.style.fill with
    | some color => painted false color
    | none => (Stroke.ofShape shape false).map fun s => (s, textColor)
  | _ =>
    (e.style.fill.map (painted true)).getD [] ++ (e.style.stroke.map (painted false)).getD []

/-- The strokes of a scene in paint order. -/
def sceneStrokes (scene : Scene α) (elapsed : Duration) : List (Stroke α × Rgb) :=
  scene.elements.flatMap fun e => elementStrokes e elapsed

end QueueBoard.Terminal
