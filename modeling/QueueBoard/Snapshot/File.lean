import QueueBoard.Files
import QueueBoard.Snapshot
/-!
# Reading snapshots

A text with an array holds records, one with an object the payload of the scheduler or the metrics
of a cluster. What is no JSON, or has another shape, is refused with a reason, and so is a file that
cannot be read.
-/

namespace QueueBoard.Snapshot

open Json

/-! ## Texts -/

/-- The records of the scheduler's payload. -/
def queuesOfScheduler (value : Json) : Except Error (List (QueueRecord Float)) :=
  match (value.member? "scheduler").bind (Json.member? "schedulerInfo") with
  | none => .error (.missing "scheduler.schedulerInfo")
  | some info =>
    match Payload.ofJson (info.depth + 1) info with
    | .error cause => .error (.shape cause)
    | .ok root => .ok (root.flatten none)

/-- The JSON value of a text. -/
def readJson (text : String) : Except Error Json :=
  match Json.parse text with
  | none => .error .malformed
  | some value => .ok value

/-- The queues of a text in the scheduler's own shape. -/
def parseScheduler (text : String) : Except Error (List (QueueRecord Float)) := do
  queuesOfScheduler (← readJson text)

/-- The queues of a text in either shape. -/
def parseQueues (text : String) : Except Error (List (QueueRecord Float)) := do
  match ← readJson text with
  | .array items => (asList asQueueRecord (.array items)).mapError .shape
  | .object members => queuesOfScheduler (.object members)
  | _ => .error .notQueues

/-- The cluster metrics of a text. -/
def parseMetrics (text : String) : Except Error (ClusterMetrics Float) := do
  match ← readJson text with
  | .object members =>
    (asMetrics ((members.lookup "clusterMetrics").getD (.object members))).mapError .shape
  | _ => .error .notMetrics

/-! ## Files -/

variable {m : Type → Type} [Monad m] [FileStore m]

/-- The text of a snapshot file. -/
def readFile (path : String) : m (Except Error String) := do
  return (← FileStore.read path).mapError fun e => .unreadable path e.message

/-- The queues of a file. -/
def loadQueues (path : String) : m (Except Error (List (QueueRecord Float))) := do
  return (← readFile path).bind parseQueues

/-- The cluster metrics of a file. -/
def loadMetrics (path : String) : m (Except Error (ClusterMetrics Float)) := do
  return (← readFile path).bind parseMetrics

end QueueBoard.Snapshot
