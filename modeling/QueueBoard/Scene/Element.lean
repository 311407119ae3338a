import QueueBoard.Color
import QueueBoard.Scalar
import QueueBoard.Scene.Shape
import QueueBoard.Scene.Transition
/-!
# Elements of a picture

A shape with its style. An element may carry a target, which is what the pointer means when it is on
the shape: a queue, or a labeled value of a chart. It may also carry a transition, by which it
enters.
-/

namespace QueueBoard

variable {α : Type} [Scalar α] [Trig α]

/-- One labeled value. -/
structure Datum (α : Type) where
  label : String
  value : α
  deriving Repr, DecidableEq

namespace Datum

/-- The value as charts see it: what is negative or not finite counts as zero. -/
def magnitude (d : Datum α) : α :=
  if Scalar.isFinite d.value then Scalar.max d.value 0 else 0

/-- The label and the value, as tooltips and legends show them. -/
def describe (d : Datum α) : String := d.label ++ " = " ++ Scalar.text d.value

/-- Same label and numerically the same value. -/
def same (d e : Datum α) : Bool := d.label == e.label && Scalar.same d.value e.value

end Datum

/-- How a shape is painted. -/
structure Style (α : Type) where
  fill : Option Rgb := none
  stroke : Option Rgb := none
  strokeWidth : α
  /-- Lengths of a dash and of the gap after it. -/
  dash : Option (α × α) := none
  role : Option String := none
  deriving Repr, DecidableEq

/-- What an element stands for. -/
inductive Target (α : Type) where
  /-- A value of a chart; the tooltip tells it. -/
  | datum (datum : Datum α)
  /-- A queue of the tree; clicks select or fold it. -/
  | queue (name : String)
  deriving Repr, DecidableEq

/-- Whether two targets stand for the same thing. -/
def Target.same : Target α → Target α → Bool
  | .datum d, .datum e => d.same e
  | .queue m, .queue n => m == n
  | _, _ => false

/-- The text that explains a target. -/
def Target.title : Target α → String
  | .datum d => d.describe
  | .queue name => name

/-- A styled shape. -/
structure Element (α : Type) where
  shape : Shape α
  style : Style α
  target : Option (Target α) := none
  transition : Option Transition := none
  deriving Repr, DecidableEq

namespace Element

/-- A shape without any style. -/
def ofShape (shape : Shape α) : Element α := { shape, style := { strokeWidth := 0 } }

/-- A filled element. -/
def fill (e : Element α) (color : Rgb) : Element α :=
  { e with style := { e.style with fill := some color } }

/-- An outlined element. -/
def stroke (e : Element α) (color : Rgb) (width : α) : Element α :=
  { e with style := { e.style with stroke := some color, strokeWidth := width } }

/-- An element with a dashed outline. -/
def dashed (e : Element α) (dash gap : α) : Element α :=
  { e with style := { e.style with dash := some (dash, gap) } }

/-- An element with a role in the picture. -/
def role (e : Element α) (name : String) : Element α :=
  { e with style := { e.style with role := some name } }

/-- A text with another anchor; any other element is unchanged. -/
def anchor (e : Element α) (value : Anchor) : Element α :=
  match e.shape with
  | .text label => { e with shape := .text { label with anchor := value } }
  | _ => e

/-- A text of another size; any other element is unchanged. -/
def fontSize (e : Element α) (value : α) : Element α :=
  match e.shape with
  | .text label => { e with shape := .text { label with size := value } }
  | _ => e

/-- An element with a target. -/
def aim (e : Element α) (target : Target α) : Element α := { e with target := some target }

/-- An element whose target is a datum. -/
def bind (e : Element α) (datum : Datum α) : Element α := e.aim (.datum datum)

/-- An element that enters. -/
def enter (e : Element α) (transition : Transition) : Element α :=
  { e with transition := some transition }

/-- The shape as it looks some time after the picture was drawn. -/
def sampledShape (e : Element α) (elapsed : Duration) : Shape α :=
  match e.transition with
  | none => e.shape
  | some transition =>
    let t : α := transition.progress elapsed
    match e.shape, transition.kind with
    | .rect origin width height, .growWidth => .rect origin (lerp 0 width t) height
    | .sector sector, .sweepAngles =>
      .sector (sector.withAngles (lerp 0 sector.start t) (lerp 0 sector.finish t))
    | shape, _ => shape

end Element

end QueueBoard
