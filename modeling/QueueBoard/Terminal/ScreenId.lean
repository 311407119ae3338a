import QueueBoard.Cluster
import QueueBoard.Queue.Record
import QueueBoard.Snapshot.File
/-!
# Screens, messages and the loader

Messages go between the parts of the terminal dashboard: what input asks for, what screens have to
tell, and what the loader delivers.

The loader reads the snapshots once at the start and once more for every request. A round delivers
one message for every snapshot there is, the queues first, whatever becomes of the other.
-/

namespace QueueBoard.Terminal

/-! ## Screens -/

/-- A screen. -/
inductive ScreenId where
  | queues
  | cluster
  deriving Repr, BEq, DecidableEq, Inhabited

namespace ScreenId

/-- All screens in the order of their tabs. -/
def all : List ScreenId := [queues, cluster]

/-- The number of the tab. -/
def number : ScreenId → Nat
  | queues => 1
  | cluster => 2

/-- The screen of a tab's number. -/
def ofNumber? (n : Nat) : Option ScreenId := all.find? (·.number == n)

/-- The screen of the next tab; the first follows the last. -/
def next : ScreenId → ScreenId
  | queues => cluster
  | cluster => queues

/-- The title of the tab. -/
def label : ScreenId → String
  | queues => "Queues"
  | cluster => "Cluster"

/-- The screen shown first. -/
def first : ScreenId := queues

end ScreenId

/-! ## Messages -/

/-- A message. -/
inductive Action (α : Type) where
  | quit
  | tick
  | frame
  | resize (columns rows : Nat)
  | switchScreen (screen : ScreenId)
  | toggleHelp
  /-- Asks the loader to read the snapshots again. -/
  | reload
  | queuesLoaded (records : List (QueueRecord α))
  | metricsLoaded (metrics : ClusterMetrics α)
  | loadFailed (message : String)
  /-- A line for the status bar. -/
  | notify (message : String)
  deriving Repr, DecidableEq

/-! ## The loader -/

/-- The files of the snapshots. -/
structure Sources where
  queues : Option String := none
  metrics : Option String := none
  deriving Repr, BEq, DecidableEq

/-- The message of a snapshot that was read or not. -/
def delivery {β : Type} (loaded : β → Action Float) : Except Snapshot.Error β → Action Float
  | .ok b => loaded b
  | .error cause => .loadFailed cause.message

/-- What is told if there is nothing to read. -/
def nothingToLoad : String := "no snapshot files configured (pass --queues / --metrics)"

section

variable {m : Type → Type} [Monad m] [FileStore m]

/-- The messages of a round. -/
def loadRound (s : Sources) : m (List (Action Float)) := do
  match s.queues, s.metrics with
  | none, none => return [.notify nothingToLoad]
  | queues, metrics =>
    let first ← queues.toList.mapM fun path =>
      return delivery .queuesLoaded (← Snapshot.loadQueues path)
    let second ← metrics.toList.mapM fun path =>
      return delivery .metricsLoaded (← Snapshot.loadMetrics path)
    return first ++ second

/-- The messages of the first round and of one for each request. A loader that is cancelled finishes
its first round only. -/
def loadRounds (s : Sources) (requests : Nat) (cancelled : Bool) : m (List (Action Float)) := do
  let rounds := if cancelled then 1 else requests + 1
  return (← (List.replicate rounds ()).mapM fun _ => loadRound s).flatten

end

end QueueBoard.Terminal
