import QueueBoard.Scene
import QueueBoard.Markup
/-!
# Scenes as SVG

Every layer becomes a group and every element one tag on a line of its own. Targets become titles.
With animation on, shapes with a transition are drawn in their empty state and carry an animation to
the final one, which a browser plays on load.
-/

namespace QueueBoard.Svg

open Markup

variable {α : Type} [Scalar α] [Trig α]

/-- An attribute that holds a coordinate. -/
def coordinate (name : String) (v : α) : Attribute := { name, value := Coordinate.text v }

/-- How many steps a sweeping sector takes. -/
def sweepFrames : Nat := 12

/-- The attributes that say how a shape is painted. -/
def paint (style : Style α) : List Attribute :=
  let fill : Attribute := { name := "fill", value := (style.fill.map Rgb.text).getD "none" }
  let stroke :=
    match style.stroke with
    | none => []
    | some color =>
      [{ name := "stroke", value := color.text }, coordinate "stroke-width" style.strokeWidth]
  let dash :=
    match style.dash with
    | none => []
    | some (dash, gap) => [{ name := "stroke-dasharray", value := (⟨dash, gap⟩ : Point α).text }]
  let role :=
    match style.role with
    | none => []
    | some name => [{ name := "class", value := name, verbatim := true }]
  fill :: stroke ++ dash ++ role

/-- The animation of one attribute, given what changes, over a time. -/
def animate (target : String) (change : List Attribute) (duration : Duration) : Node :=
  .element "animate"
    ({ name := "attributeName", value := target } :: change ++
      [{ name := "dur", value := Scalar.text (duration.seconds : α) ++ "s" },
        { name := "fill", value := "freeze" }]) []

/-- The outlines of a sweeping sector, frame after frame. -/
def sweepValues (e : Element α) (duration : Duration) : List String :=
  (List.range (sweepFrames + 1)).map fun i =>
    let elapsed := duration.scale (Scalar.ofNat i / Scalar.ofNat sweepFrames : α)
    match e.sampledShape elapsed with
    | .sector s => s.text
    | _ => ""

/-- The animation of an element whose transition fits its shape. -/
def animation (e : Element α) : List Node :=
  match e.transition with
  | none => []
  | some transition =>
    match e.shape, transition.kind with
    | .rect _ width _, .growWidth =>
      [animate (α := α) "width" [{ name := "from", value := "0" }, coordinate "to" width]
        transition.duration]
    | .sector _, .sweepAngles =>
      [animate (α := α) "d"
        [{ name := "values", value := ";".intercalate (sweepValues e transition.duration) }]
        transition.duration]
    | _, _ => []

/-- The tag of a shape, its geometry, and the text it holds. -/
def geometry : Shape α → String × List Attribute × List Node
  | .line a b =>
    ("line", [coordinate "x1" a.x, coordinate "y1" a.y, coordinate "x2" b.x, coordinate "y2" b.y],
      [])
  | .rect origin width height =>
    ("rect", [coordinate "x" origin.x, coordinate "y" origin.y, coordinate "width" width,
      coordinate "height" height], [])
  | .circle center radius =>
    ("circle", [coordinate "cx" center.x, coordinate "cy" center.y, coordinate "r" radius], [])
  | .path p => ("path", [{ name := "d", value := p.text }], [])
  | .sector s => ("path", [{ name := "d", value := s.text }], [])
  | .text run =>
    let anchor :=
      match run.anchor with
      | .start => "start"
      | .middle => "middle"
      | .finish => "end"
    ("text", [coordinate "x" run.position.x, coordinate "y" run.position.y,
      { name := "text-anchor", value := anchor }, coordinate "font-size" run.size],
      [.text run.text])

/-- The tag of an element. -/
def element (animated : Bool) (e : Element α) : Node :=
  let title :=
    match e.target with
    | none => []
    | some target => [Node.element "title" [] [.text target.title]]
  let motion := if animated then animation e else []
  let shape := if animated && e.transition.isSome then e.sampledShape ⟨0⟩ else e.shape
  let (name, attributes, content) := geometry shape
  .element name (attributes ++ paint e.style) (title ++ motion ++ content)

/-- A line break. -/
def newline : Node := .text "\n"

/-- The group of a layer, one line per element. -/
def layer (animated : Bool) (l : Layer α) : Node :=
  .element "g" [{ name := "id", value := l.id }]
    (newline :: l.elements.flatMap fun e => [element animated e, newline])

/-- The whole picture as markup. -/
def document (animated : Bool) (scene : Scene α) : Node :=
  let w := Coordinate.text scene.width
  let h := Coordinate.text scene.height
  .element "svg"
    [{ name := "xmlns", value := "http://www.w3.org/2000/svg" }, { name := "width", value := w },
      { name := "height", value := h },
      { name := "viewBox", value := "0 0 " ++ w ++ " " ++ h },
      { name := "font-family", value := "sans-serif" }, { name := "font-size", value := "12" }]
    (newline :: scene.layers.flatMap fun l => [layer animated l, newline])

/-- The text of the picture. -/
def render (animated : Bool) (scene : Scene α) : String :=
  (document animated scene).write ++ "\n"

end QueueBoard.Svg
