import QueueBoard.Geometry.Path
import QueueBoard.Geometry.Sector
/-!
# Shapes

What a picture is made of, and which points lie inside. Lines and paths have no inside. The extent
of a text is estimated: every character advances by 0.6 of the font size.
-/

namespace QueueBoard

variable {α : Type} [Scalar α] [Trig α]

/-- Which end of a text its position fixes. -/
inductive Anchor where
  | start
  | middle
  | finish
  deriving Repr, BEq, DecidableEq

/-- A text at a place. -/
structure Label (α : Type) where
  position : Point α
  text : String
  anchor : Anchor := .start
  size : α
  deriving Repr, DecidableEq

/-- Left edge, top edge, width and height of a box. -/
structure Bounds (α : Type) where
  left : α
  top : α
  width : α
  height : α
  deriving Repr, DecidableEq

/-- Whether a point lies in a box, edges included. -/
def Bounds.contains (b : Bounds α) (p : Point α) : Bool :=
  b.left ≤ p.x && p.x ≤ b.left + b.width && b.top ≤ p.y && p.y ≤ b.top + b.height

/-- The estimated box of a text. -/
def Label.bounds (l : Label α) : Bounds α :=
  let width := Scalar.ofNat l.text.length * l.size * 0.6
  let left :=
    match l.anchor with
    | .start => l.position.x
    | .middle => l.position.x - width / 2
    | .finish => l.position.x - width
  ⟨left, l.position.y - l.size, width, l.size⟩

/-- A shape to paint. -/
inductive Shape (α : Type) where
  | line (start finish : Point α)
  | rect (origin : Point α) (width height : α)
  | circle (center : Point α) (radius : α)
  | path (path : Path α)
  | sector (sector : Sector α)
  | text (label : Label α)
  deriving Repr, DecidableEq

namespace Shape

/-- A text of the regular size, starting at a place. -/
def label (position : Point α) (text : String) : Shape α := .text ⟨position, text, .start, 12⟩

/-- Whether the pointer at `p` is on the shape. -/
def contains (shape : Shape α) (p : Point α) : Bool :=
  match shape with
  | .rect origin width height => Bounds.contains ⟨origin.x, origin.y, width, height⟩ p
  | .circle center radius => Scalar.within (p.x - center.x) (p.y - center.y) radius
  | .sector wedge => wedge.contains p
  | .text run => run.bounds.contains p
  | .line .. | .path _ => false

end Shape

end QueueBoard
