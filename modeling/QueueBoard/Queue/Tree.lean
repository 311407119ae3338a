import QueueBoard.Queue.Record
/-!
# The queue tree

Records come as a flat list. Of several records with one name the first counts; child and parent
names become positions in the list of nodes, and names of no queue are left out. What was left out
is told as warnings.
-/

namespace QueueBoard

variable {α : Type} [Scalar α]

/-- A queue with its links resolved to positions in the tree. -/
structure QueueNode (α : Type) where
  record : QueueRecord α
  /-- Positions of the children that exist, in declared order. -/
  children : List Nat
  parent : Option Nat
  deriving Repr, DecidableEq

namespace QueueNode

/-- The queue's name. -/
def name (n : QueueNode α) : String := n.record.name

/-- Whether there is anything to fold. -/
def hasChildren (n : QueueNode α) : Bool := !n.children.isEmpty

end QueueNode

/-- The queues of a snapshot in order of first occurrence. -/
structure QueueTree (α : Type) where
  nodes : List (QueueNode α) := []
  deriving Repr, DecidableEq

/-- Something in a snapshot that was left out or is missing. -/
inductive TreeWarning where
  | duplicate (queue : String)
  | selfChild (queue : String)
  | danglingChild (queue child : String)
  | danglingParent (queue parent : String)
  | noRoot
  deriving Repr, BEq, DecidableEq

namespace QueueTree

/-- The records that are the first of their names. -/
def firstRecords (records : List (QueueRecord α)) : List (QueueRecord α) :=
  go [] records
where
  go (seen : List String) : List (QueueRecord α) → List (QueueRecord α)
    | [] => []
    | r :: rest => if seen.contains r.name then go seen rest else r :: go (r.name :: seen) rest

/-- The position of a name among records. -/
def position? (records : List (QueueRecord α)) (name : String) : Option Nat :=
  records.findIdx? (·.name == name)

/-- A record with its links resolved among `records`. A queue that lists itself is not its own
child. -/
def resolve (records : List (QueueRecord α)) (r : QueueRecord α) : QueueNode α :=
  { record := r
    children := (r.children.filter (· != r.name)).filterMap (position? records)
    parent := r.parent.bind (position? records) }

/-- The tree of a snapshot. -/
def build (records : List (QueueRecord α)) : QueueTree α :=
  let firsts := firstRecords records
  ⟨firsts.map (resolve firsts)⟩

/-- The node at a position. -/
def get? (t : QueueTree α) (id : Nat) : Option (QueueNode α) := t.nodes[id]?

/-- The position of a queue's name. -/
def idOf? (t : QueueTree α) (name : String) : Option Nat := t.nodes.findIdx? (·.name == name)

/-- The node of a queue's name. -/
def byName? (t : QueueTree α) (name : String) : Option (QueueNode α) :=
  t.nodes.find? (·.name == name)

/-- The position of the root queue. -/
def rootId? (t : QueueTree α) : Option Nat := t.idOf? rootName

/-- The root queue. -/
def root? (t : QueueTree α) : Option (QueueNode α) := t.byName? rootName

/-- Number of queues. -/
def size (t : QueueTree α) : Nat := t.nodes.length

/-- Whether there is no queue at all. -/
def isEmpty (t : QueueTree α) : Bool := t.nodes.isEmpty

/-- The children of a node, in declared order. -/
def childrenOf (t : QueueTree α) (n : QueueNode α) : List (QueueNode α) :=
  n.children.filterMap t.get?

/-- Every queue that lists no children, in record order. -/
def leaves (t : QueueTree α) : List (QueueNode α) := t.nodes.filter (·.record.isLeaf)

/-- Whether a name is a queue with something to fold. -/
def canFold (t : QueueTree α) (name : String) : Bool := (t.byName? name).any (·.hasChildren)

/-- The warnings about records that repeat a name. -/
def duplicateWarnings (records : List (QueueRecord α)) : List TreeWarning :=
  go [] records
where
  go (seen : List String) : List (QueueRecord α) → List TreeWarning
    | [] => []
    | r :: rest =>
      if seen.contains r.name then .duplicate r.name :: go seen rest
      else go (r.name :: seen) rest

/-- The warnings about the links of one record. -/
def linkWarnings (records : List (QueueRecord α)) (r : QueueRecord α) : List TreeWarning :=
  let known := fun name => (position? records name).isSome
  let children := r.children.filterMap fun child =>
    if child == r.name then some (.selfChild r.name)
    else if known child then none
    else some (.danglingChild r.name child)
  let parent :=
    match r.parent with
    | some parent => if known parent then [] else [.danglingParent r.name parent]
    | none => []
  children ++ parent

/-- Everything worth a warning in a snapshot, in the order it is met. -/
def warnings (records : List (QueueRecord α)) : List TreeWarning :=
  let firsts := firstRecords records
  let root := (position? firsts rootName).isSome || firsts.isEmpty
  duplicateWarnings records ++ firsts.flatMap (linkWarnings firsts) ++
    (if root then [] else [.noRoot])

end QueueTree

end QueueBoard
