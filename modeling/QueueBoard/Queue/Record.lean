import QueueBoard.Scalar
/-!
# Queue records

One scheduler queue as a snapshot tells it. Capacities are percentages: the plain ones of the parent
queue, the absolute ones of the whole cluster. A tree is told twice, by parent names and by child
names; the child names are the ones that are followed.
-/

namespace QueueBoard

variable {α : Type} [Scalar α]

/-- One scheduler queue. -/
structure QueueRecord (α : Type) where
  name : String
  parent : Option String := none
  children : List String := []
  capacity : α
  maxCapacity : α
  usedCapacity : α
  absCapacity : α
  absMaxCapacity : α
  absUsedCapacity : α
  state : Option String := none
  userLimit : Option α := none
  userLimitFactor : Option α := none
  preemptionDisabled : Option Bool := none
  deriving Repr, DecidableEq

/-- The name of the queue at the top. -/
def rootName : String := "root"

namespace QueueRecord

/-- A record with nothing but a name. -/
def named (name : String) : QueueRecord α :=
  { name, capacity := 0, maxCapacity := 0, usedCapacity := 0, absCapacity := 0,
    absMaxCapacity := 0, absUsedCapacity := 0 }

instance : Inhabited (QueueRecord α) := ⟨.named ""⟩

/-- Whether this is the queue at the top. -/
def isRoot (r : QueueRecord α) : Bool := r.name == rootName

/-- A queue that lists no children is a leaf, whether or not names resolve. -/
def isLeaf (r : QueueRecord α) : Bool := r.children.isEmpty

/-- Capacities in the whole cluster. The root's own ones already are that. -/
def absoluteCapacities (r : QueueRecord α) : List (String × α) :=
  if r.isRoot then
    [("Absolute Capacity", 100), ("Absolute Used", r.usedCapacity), ("Absolute Max Capacity", 100)]
  else
    [("Absolute Capacity", r.absCapacity), ("Absolute Used", r.absUsedCapacity),
      ("Absolute Max Capacity", r.absMaxCapacity)]

end QueueRecord

end QueueBoard
