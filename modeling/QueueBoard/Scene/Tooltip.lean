import QueueBoard.Scene
/-!
# Tooltips

The floating label that tells the value under the pointer. The controller is fed pointer positions
and scenes; it remembers which target it is showing.
-/

namespace QueueBoard

variable {α : Type} [Scalar α] [Trig α]

/-- The label as a host draws it. -/
structure Tooltip (α : Type) where
  position : Point α
  opacity : α
  text : String := ""
  deriving Repr, DecidableEq

namespace Tooltip

/-- No label. -/
def hidden : Tooltip α := { position := ⟨0, 0⟩, opacity := 0 }

/-- Whether the label is to be drawn. -/
def isVisible (t : Tooltip α) : Bool := 0 < t.opacity

/-- Labels float this far above the pointer. -/
def place (pointer : Point α) : Point α := pointer.offset 0 (-28)

end Tooltip

/-- A label with the target it belongs to. -/
structure TooltipController (α : Type) where
  tooltip : Tooltip α
  hovered : Option (Target α) := none
  deriving Repr, DecidableEq

namespace TooltipController

/-- Nothing shown and nothing remembered. -/
def fresh : TooltipController α := { tooltip := .hidden }

/-- The pointer came onto a shape: the label moves there. -/
def enter (c : TooltipController α) (pointer : Point α) : TooltipController α :=
  { c with tooltip := { c.tooltip with position := Tooltip.place pointer } }

/-- The pointer moved on a shape: the label shows its datum. -/
def move (c : TooltipController α) (datum : Datum α) (pointer : Point α) : TooltipController α :=
  { c with tooltip := ⟨Tooltip.place pointer, 0.9, datum.describe⟩ }

/-- The pointer left: the label hides. -/
def leave (c : TooltipController α) : TooltipController α :=
  { c with tooltip := { c.tooltip with opacity := 0 }, hovered := none }

/-- Follows the pointer over a scene. -/
def track (c : TooltipController α) (scene : Scene α) (pointer : Point α) : TooltipController α :=
  match scene.targetAt pointer with
  | some (.datum datum) =>
    let known := c.hovered.any (·.same (.datum datum))
    let c := if known then c else { c.enter pointer with hovered := some (.datum datum) }
    c.move datum pointer
  | _ => if c.hovered.isSome || c.tooltip.isVisible then c.leave else c

end TooltipController

end QueueBoard
