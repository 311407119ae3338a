import QueueBoard.Queue.Tree
import QueueBoard.Geometry.Path
/-!
# Placement of the queue tree

A walk from the root, depth first, gives every visible queue a row of its own; folded queues hide
what is below them. A queue that is met twice keeps its first row, so the walk ends on every
snapshot, cycles included.
-/

namespace QueueBoard

variable {α : Type} [Scalar α]

/-- Names of folded queues, each once, in the order of their code points. -/
structure FoldedSet where
  names : List String := []
  deriving Repr, BEq, DecidableEq

namespace FoldedSet

/-- Whether a name is folded. -/
def contains (f : FoldedSet) (name : String) : Bool := f.names.contains name

/-- A sorted list with one more name. -/
def insertName (name : String) : List String → List String
  | [] => [name]
  | n :: rest =>
    if name == n then n :: rest
    else if name < n then name :: n :: rest
    else n :: insertName name rest

/-- The set with a name folded. -/
def insert (f : FoldedSet) (name : String) : FoldedSet := ⟨insertName name f.names⟩

/-- The set with a name unfolded. -/
def erase (f : FoldedSet) (name : String) : FoldedSet := ⟨f.names.filter (· != name)⟩

/-- The set with the state of one name flipped. -/
def toggle (f : FoldedSet) (name : String) : FoldedSet :=
  if f.contains name then f.erase name else f.insert name

/-- The set of the given names. -/
def ofList (names : List String) : FoldedSet := names.foldl insert {}

/-- Whether nothing is folded. -/
def isEmpty (f : FoldedSet) : Bool := f.names.isEmpty

end FoldedSet

/-- The radius of a queue's circle. -/
def nodeRadius : α := 10

/-- The place of a row: 30 to the right per level and 30 down per row. -/
def nodePosition (depth sequence : Nat) : Point α :=
  ⟨20 + 30 * Scalar.ofNat depth, 20 + 30 * Scalar.ofNat sequence⟩

/-- A visible queue. -/
structure PlacedNode (α : Type) where
  id : Nat
  name : String
  position : Point α
  depth : Nat
  sequence : Nat
  folded : Bool
  hasChildren : Bool
  deriving Repr, DecidableEq

namespace PlacedNode

/-- The name, marked if the queue is folded. -/
def label (n : PlacedNode α) : String := if n.folded then n.name ++ " (+)" else n.name

/-- Where the label starts. -/
def labelAt (n : PlacedNode α) : Point α := n.position.offset 30 5

end PlacedNode

/-- The curve from a queue to one of its children. -/
structure Connector (α : Type) where
  parent : Nat
  child : Nat
  path : Path α
  deriving Repr, DecidableEq

/-- The visible tree. -/
structure TreeLayout (α : Type) where
  /-- Visible queues from top to bottom. -/
  rows : List (PlacedNode α) := []
  connectors : List (Connector α) := []
  /-- For every link to a queue already placed, the queue that lists it. -/
  repeats : List String := []
  deriving Repr, DecidableEq

namespace TreeLayout

/-- Whether a node has a row already. -/
def visited (l : TreeLayout α) (id : Nat) : Bool := l.rows.any (·.id == id)

/-- The curve between two places. It arrives at the child from the left. -/
def connectorPath (start finish : Point α) : Path α :=
  .basis [start, finish.offset (-20) 0, finish]

/-- Gives a node the next row, then its subtree the rows after it. `fuel` bounds the depth of the
walk; every level takes a node not yet placed, so the number of nodes is enough. -/
def place (tree : QueueTree α) (folded : FoldedSet) :
    (fuel : Nat) → (id depth : Nat) → TreeLayout α → TreeLayout α
  | 0, _, _, l => l
  | fuel + 1, id, depth, l =>
    match tree.get? id with
    | none => l
    | some node =>
      let sequence := l.rows.length
      let position := nodePosition depth sequence
      let isFolded := node.hasChildren && folded.contains node.name
      let row : PlacedNode α :=
        { id, name := node.name, position, depth, sequence, folded := isFolded,
          hasChildren := node.hasChildren }
      let l := { l with rows := l.rows ++ [row] }
      if isFolded then l
      else
        node.children.foldl (fun l child =>
          if l.visited child then { l with repeats := l.repeats ++ [node.name] }
          else
            let target := nodePosition (depth + 1) l.rows.length
            let l := place tree folded fuel child (depth + 1) l
            { l with connectors := l.connectors ++ [⟨id, child, connectorPath position target⟩] }) l

/-- The placement of the visible tree. -/
def compute (tree : QueueTree α) (folded : FoldedSet) : TreeLayout α :=
  match tree.rootId? with
  | none => {}
  | some root => place tree folded tree.size root 0 {}

/-- The depth of the deepest row. -/
def maxDepth (l : TreeLayout α) : Nat := (l.rows.map (·.depth)).foldl max 0

/-- The width of the tree, left of the charts. -/
def bannerWidth (l : TreeLayout α) : α := Scalar.ofNat l.maxDepth * 30 + 100

/-- The row of a queue's name. -/
def row? (l : TreeLayout α) (name : String) : Option (PlacedNode α) :=
  l.rows.find? (·.name == name)

/-- The place of a queue's name. -/
def positionOf? (l : TreeLayout α) (name : String) : Option (Point α) :=
  (l.row? name).map (·.position)

end TreeLayout

end QueueBoard
