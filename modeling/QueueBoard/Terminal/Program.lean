import QueueBoard.Arguments.Reader
import QueueBoard.Config.File
import QueueBoard.Terminal.ScreenId
/-!
# Starting the terminal dashboard

Its command line, what it takes from the configuration, and its log.
-/

namespace QueueBoard.Terminal

open Arguments

/-- What the command line of the terminal dashboard says. -/
structure Launch where
  queues : Option String := none
  metrics : Option String := none
  config : Option String := none
  logFile : String := "/tmp/queuescope-tui.log"
  verbosity : Nat := 0
  deriving Repr, DecidableEq

namespace Launch

/-- The grammar. -/
def grammar : Level where
  name := "queuescope-tui"
  switches :=
    [{ name := "queues", letter := some 'i', takes := .one .path },
      { name := "metrics", letter := some 'm', takes := .one .path },
      { name := "config", takes := .one .path, envName := some "QUEUESCOPE_CONFIG" },
      { name := "log-file", takes := .one .path },
      { name := "verbose", letter := some 'v', takes := .count }] ++ ubiquitous "queuescope-tui"

/-- What a command line says. -/
def ofReading (r : Reading) : Launch :=
  let usual : Launch := {}
  { queues := r.value? "queues", metrics := r.value? "metrics", config := r.value? "config"
    logFile := (r.value? "log-file").getD usual.logFile, verbosity := r.count "verbose" }

/-- The command line of a list of words. -/
def parse (lookup : String → Option String) (words : List String) : Except Fault Launch :=
  return ofReading (← read lookup grammar words)

/-- The snapshots: those of the command line, or else the configured ones. -/
def sources (l : Launch) (c : Config) : Sources where
  queues := l.queues.or c.defaults.queuesFile
  metrics := l.metrics.or c.defaults.metricsFile

/-- The directory of the log and its name in there. -/
def logPlace (l : Launch) : String × String :=
  ((FilePath.parent? l.logFile).getD "/tmp",
    (FilePath.fileName? l.logFile).getD "queuescope-tui.log")

/-- The path of the log. -/
def logPath (l : Launch) : String :=
  let (directory, name) := l.logPlace
  if directory.isEmpty then name else directory ++ "/" ++ name

/-- Why the dashboard does not start. -/
inductive Failure where
  | usage (fault : Fault)
  /-- There is no place for the log. -/
  | log (cause : FileError)
  | config (cause : Config.Error)
  deriving Repr

/-- The code the program ends with. A dashboard that cannot keep a log breaks off. -/
def Failure.exitCode : Failure → Nat
  | .usage fault => if fault.isMistake then 2 else 0
  | .log _ => 101
  | .config _ => 1

section

variable {m : Type → Type} [Monad m] [FileStore m]

/-- Makes the log if it is not there, and the directory it lies in. What is there already is kept, and
has to be a file. -/
def openLog (l : Launch) : m (Except FileError Unit) := do
  match ← FileStore.read l.logPath with
  | .ok _ | .error .notText => return .ok ()
  | .error _ =>
    let (directory, _) := l.logPlace
    let made ← if directory.isEmpty then pure (.ok ()) else FileStore.makeDirectories directory
    match made with
    | .ok () => FileStore.write l.logPath ""
    | .error cause => return .error cause

/-- The configuration. A file that is named has to be right. -/
def loadConfig (env : Config.Environment.Variables) (l : Launch) : m (Except Config.Error Config) :=
  match l.config with
  | some path => Config.load env path
  | none => return .ok (← Config.loadOrDefault env)

/-- What comes before the first frame: the command line, the log, the configuration. -/
def run (env : Config.Environment.Variables) (words : List String) :
    m (Except Failure (Sources × Timing)) := do
  match parse (Config.Environment.lookup env) words with
  | .error fault => return .error (.usage fault)
  | .ok l =>
    match ← l.openLog with
    | .error cause => return .error (.log cause)
    | .ok () =>
      match ← loadConfig env l with
      | .error cause => return .error (.config cause)
      | .ok config => return .ok (l.sources config, config.timing)

end

end Launch

end QueueBoard.Terminal
