import QueueBoard.Scene.Element
/-!
# Scenes

The complete picture of one canvas: layers of elements in paint order, later ones on top. At the
back of every dashboard there is a light grid over the whole canvas.
-/

namespace QueueBoard

variable {α : Type} [Scalar α] [Trig α]

/-- Elements that belong together. -/
structure Layer (α : Type) where
  id : String
  elements : List (Element α) := []
  deriving Repr, DecidableEq

namespace Layer

/-- The layer with an element on top. -/
def push (l : Layer α) (e : Element α) : Layer α := { l with elements := l.elements ++ [e] }

/-- The layer with the elements of another on top. -/
def extend (l other : Layer α) : Layer α := { l with elements := l.elements ++ other.elements }

end Layer

/-- A picture. -/
structure Scene (α : Type) where
  width : α
  height : α
  layers : List (Layer α) := []
  deriving Repr, DecidableEq

namespace Scene

/-- The first layer of an id. -/
def layer? (s : Scene α) (id : String) : Option (Layer α) := s.layers.find? (·.id == id)

/-- All elements in paint order. -/
def elements (s : Scene α) : List (Element α) := s.layers.flatMap (·.elements)

/-- The topmost element with a target under a point. -/
def hit (s : Scene α) (p : Point α) : Option (Element α) :=
  s.elements.reverse.find? fun e => e.target.isSome && e.shape.contains p

/-- The target of the topmost element with one under a point. -/
def targetAt (s : Scene α) (p : Point α) : Option (Target α) := (s.hit p).bind (·.target)

/-- Whether some transition has not reached its end. -/
def isAnimating (s : Scene α) (elapsed : Duration) : Bool :=
  s.elements.any fun e => e.transition.any fun t => !t.isFinished elapsed

/-- The picture with the first layer of the same id replaced. -/
def replaceLayer (s : Scene α) (layer : Layer α) : Scene α :=
  { s with layers := replaceFirst s.layers }
where
  replaceFirst : List (Layer α) → List (Layer α)
    | [] => []
    | l :: rest => if l.id == layer.id then layer :: rest else l :: replaceFirst rest

end Scene

namespace Backdrop

/-- Distance between two lines of the grid. -/
def pitch : α := 30

/-- Where lines cross an extent: every multiple of the pitch strictly inside. -/
def stops (extent : α) : List α :=
  let multiples := (List.range (Scalar.toNat (extent / pitch) + 1)).map fun i =>
    Scalar.ofNat (i + 1) * pitch
  multiples.takeWhile fun v => decide (v < extent)

/-- One line of the grid. -/
def gridLine (start finish : Point α) : Element α :=
  ((Element.ofShape (.line start finish)).stroke .grid 1).role "grid"

/-- The grid of a canvas: the upright lines, then the level ones. -/
def grid (width height : α) : Layer α :=
  { id := "grid"
    elements := (stops width).map (fun x => gridLine ⟨x, 0⟩ ⟨x, height⟩) ++
      (stops height).map fun y => gridLine ⟨0, y⟩ ⟨width, y⟩ }

/-- The rule right of the tree. -/
def separator (x height : α) : Layer α :=
  { id := "banner"
    elements := [(((Element.ofShape (.line ⟨x, 0⟩ ⟨x, height⟩)).stroke .separator 2).dashed 10
      10).role "chart-leftbanner"] }

end Backdrop

end QueueBoard
