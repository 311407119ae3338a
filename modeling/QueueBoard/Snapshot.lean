import QueueBoard.Cluster
import QueueBoard.Json.Reader
import QueueBoard.Json.Shape
import QueueBoard.Queue.Record
import QueueBoard.Scalar.Float
/-!
# Snapshots

Queue snapshots come in two shapes: a flat array of records, or the scheduler's own payload, where
queues nest. The payload is flattened in pre-order, each queue learning the name of the one around
it. Cluster metrics come bare or wrapped in one more object.
-/

namespace QueueBoard

namespace Snapshot

open Json

/-- Why a snapshot cannot be used. -/
inductive Error where
  /-- No JSON at all. -/
  | malformed
  | notQueues
  | notMetrics
  | missing (field : String)
  | shape (cause : ShapeError)
  /-- The file cannot be read. -/
  | unreadable (path reason : String)
  deriving Repr

/-- The message of an error, if it is told in these words; what is wrong with malformed JSON is left
open. -/
def Error.message? : Error → Option String
  | .malformed => none
  | .notQueues => some "Malformed snapshot: expected a queue array or a scheduler payload"
  | .notMetrics => some "Malformed snapshot: expected a cluster metrics object"
  | .missing field => some ("Snapshot is missing `" ++ field ++ "`")
  | .shape cause => some ("Malformed snapshot: " ++ cause.message)
  | .unreadable path reason => some ("Cannot read snapshot " ++ path ++ ": " ++ reason)

/-- The message of an error. -/
def Error.message (e : Error) : String := e.message?.getD "Malformed snapshot: no JSON"

/-- A flag that may be a boolean, a number or one of four words; anything else leaves it open. -/
def asFlag : Json → Except ShapeError (Option Bool)
  | .boolean b => .ok (some b)
  | .number n => .ok (some (n.toFloat != 0))
  | .string s =>
    .ok (if s == "true" || s == "1" then some true
      else if s == "false" || s == "0" then some false
      else none)
  | _ => .ok none

/-- The fields of a queue record. -/
def recordFields : List (RecordField (QueueRecord Float)) :=
  [{ field "name" asString (fun v r => { r with name := v }) with required := true },
    field "parent" (asOptional asString) fun v r => { r with parent := v },
    field "children" (asList asString) fun v r => { r with children := v },
    field "capacity" asFloat fun v r => { r with capacity := v },
    field "maxCapacity" asFloat fun v r => { r with maxCapacity := v },
    field "usedCapacity" asFloat fun v r => { r with usedCapacity := v },
    field "absCapacity" asFloat fun v r => { r with absCapacity := v },
    field "absMaxCapacity" asFloat fun v r => { r with absMaxCapacity := v },
    field "absUsedCapacity" asFloat fun v r => { r with absUsedCapacity := v },
    field "state" (asOptional asString) fun v r => { r with state := v },
    field "userLimit" (asOptional asFloat) fun v r => { r with userLimit := v },
    field "userLimitFactor" (asOptional asFloat) fun v r => { r with userLimitFactor := v },
    field "preemptionDisabled" asFlag fun v r => { r with preemptionDisabled := v }]

/-- A queue record. -/
def asQueueRecord : Json → Except ShapeError (QueueRecord Float) :=
  asRecord "QueueRecord" recordFields (.named "")

/-- The JSON form of a queue record. -/
def ofQueueRecord (r : QueueRecord Float) : Json :=
  .object [("name", .string r.name), ("parent", .optional .string r.parent),
    ("children", .array (r.children.map .string)), ("capacity", .float r.capacity),
    ("maxCapacity", .float r.maxCapacity), ("usedCapacity", .float r.usedCapacity),
    ("absCapacity", .float r.absCapacity), ("absMaxCapacity", .float r.absMaxCapacity),
    ("absUsedCapacity", .float r.absUsedCapacity), ("state", .optional .string r.state),
    ("userLimit", .optional .float r.userLimit),
    ("userLimitFactor", .optional .float r.userLimitFactor),
    ("preemptionDisabled", .optional .boolean r.preemptionDisabled)]

/-- A queue of the scheduler's payload with the queues inside it. -/
inductive Payload where
  | queue (record : QueueRecord Float) (inner : List Payload)

namespace Payload

/-- The queue's own values; its links are not among them. -/
def record : Payload → QueueRecord Float
  | queue record _ => record

/-- The queues inside. -/
def inner : Payload → List Payload
  | queue _ inner => inner

/-- The queue with other values. -/
def withRecord (p : Payload) (record : QueueRecord Float) : Payload := queue record p.inner

/-- The queue with others inside. -/
def withInner (p : Payload) (inner : List Payload) : Payload := queue p.record inner

mutual
/-- The records of a queue and all inside it, in pre-order. -/
def flatten (parent : Option String) : Payload → List (QueueRecord Float)
  | queue record inner =>
    { record with parent, children := inner.map fun p => p.record.name } ::
      flattenAll (some record.name) inner

/-- The records of queues beside each other. -/
def flattenAll (parent : Option String) : List Payload → List (QueueRecord Float)
  | [] => []
  | p :: rest => flatten parent p ++ flattenAll parent rest
end

/-- A field of a queue's own values. -/
def ownField {β : Type} (name : String) (read : Json → Except ShapeError β)
    (put : β → QueueRecord Float → QueueRecord Float) : RecordField Payload :=
  field name read fun v p => p.withRecord (put v p.record)

/-- The fields of a queue of the payload, its inner queues read by `read`. -/
def fields (read : Json → Except ShapeError Payload) : List (RecordField Payload) :=
  [ownField "queueName" asString fun v r => { r with name := v },
    ownField "capacity" asFloat fun v r => { r with capacity := v },
    ownField "usedCapacity" asFloat fun v r => { r with usedCapacity := v },
    ownField "maxCapacity" asFloat fun v r => { r with maxCapacity := v },
    ownField "absoluteCapacity" asFloat fun v r => { r with absCapacity := v },
    ownField "absoluteMaxCapacity" asFloat fun v r => { r with absMaxCapacity := v },
    ownField "absoluteUsedCapacity" asFloat fun v r => { r with absUsedCapacity := v },
    ownField "state" (asOptional asString) fun v r => { r with state := v },
    ownField "userLimit" (asOptional asFloat) fun v r => { r with userLimit := v },
    ownField "userLimitFactor" (asOptional asFloat) fun v r => { r with userLimitFactor := v },
    ownField "preemptionDisabled" asFlag fun v r => { r with preemptionDisabled := v },
    field "queues"
      (asOptional (asRecord "QueueList" [field "queue" (asList read) fun v _ => v] []))
      fun v p => p.withInner (v.getD [])]

/-- A queue of the payload; one without a name is the root. `levels` bounds how deep queues nest. -/
def ofJson : (levels : Nat) → Json → Except ShapeError Payload
  | 0, found => .error (.wrongType found "struct SchedulerQueue")
  | levels + 1, found =>
    asRecord "SchedulerQueue" (fields (ofJson levels)) (queue (.named rootName) []) found

end Payload

/-- The fields of cluster metrics. -/
def metricFields : List (RecordField (ClusterMetrics Float)) :=
  ClusterMetrics.counters.map fun c => field c.name asFloat c.set

/-- Cluster metrics. -/
def asMetrics : Json → Except ShapeError (ClusterMetrics Float) :=
  asRecord "ClusterMetrics" metricFields .zero

/-- The JSON form of cluster metrics. -/
def ofMetrics (m : ClusterMetrics Float) : Json :=
  .object (ClusterMetrics.counters.map fun c => (c.name, .float (c.get m)))

end Snapshot

end QueueBoard
