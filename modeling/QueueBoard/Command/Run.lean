import QueueBoard.Command
import QueueBoard.Command.Error
import QueueBoard.Dashboard.Cluster
import QueueBoard.Dashboard.Queues
import QueueBoard.Log
import QueueBoard.Report
import QueueBoard.Scene.Svg
import QueueBoard.Snapshot.File
/-!
# Running commands

A command reads a snapshot, builds the dashboard or the layout, and prints a report or a picture.
Whatever can fail is done first; only then is anything printed or written.
-/

namespace QueueBoard.Command

/-- What a command that succeeds says. -/
structure Printed where
  /-- What goes to the output. -/
  output : String := ""
  /-- What is told besides, about files written. -/
  notice : String := ""
  deriving Repr, DecidableEq

/-- A step that may fail and may warn. -/
abbrev Step (m : Type → Type) := ExceptT Error (StateT (List Warning) m)

/-- What every command knows. -/
structure Context where
  globals : Globals
  config : Config
  deriving Repr

/-- Text for the output, with a line break after it. Nothing is printed if there is nothing, or if
it is not wanted. -/
def printed (g : Globals) (text : String) : String :=
  if g.quiet || text.isEmpty then "" else text ++ "\n"

/-- A line about a file, the first word colored if that is wished. The line goes to no terminal
here, so there are no colors unless they are asked for. -/
def notice (g : Globals) (word path : String) : String :=
  let word := if g.color == .always then "\x1b[1m\x1b[32m" ++ word ++ "\x1b[39m\x1b[0m" else word
  if g.quiet then "" else word ++ " " ++ path ++ "\n"

/-- A text without the blanks at its end. -/
def withoutEnd (text : String) : String := String.ofList (Text.trimEnd text.toList)

namespace Context

/-- The format of reports. -/
def format (c : Context) : Report.Format :=
  match c.globals.output with
  | some format => format
  | none => (Report.Format.namedInAnyCase? c.config.defaults.output).getD .table

/-- The width of pictures. -/
def width (c : Context) : Except Error Float :=
  let width := c.globals.width.getD c.config.defaults.canvasWidth
  if Config.isWidth width then .ok width else .error (.width width)

/-- The configured file of a snapshot. -/
def configured (c : Context) : Source → Option String
  | .queues => c.config.defaults.queuesFile
  | .metrics => c.config.defaults.metricsFile

/-- The file of a snapshot. -/
def input (c : Context) (source : Source) (given : Option String) : Except Error String :=
  match given.or (c.configured source) with
  | some path => .ok path
  | none => .error (.noInput source)

/-- A report in the chosen format. -/
def report (c : Context) (r : Report) : Printed := { output := printed c.globals (r.text c.format) }

end Context

/-- Checks that a name is a queue. -/
def ensureQueue (tree : QueueTree Float) (name : String) : Except Error Unit :=
  if (tree.byName? name).isSome then .ok () else .error (.unknownQueue name)

/-- Checks that a name is a queue with something to fold. -/
def ensureFoldable (tree : QueueTree Float) (name : String) : Except Error Unit := do
  ensureQueue tree name
  if !tree.canFold name then throw (.notFoldable name)

/-- The set of names to fold; each of them has to be foldable. -/
def foldedSet (tree : QueueTree Float) (names : List String) : Except Error FoldedSet := do
  names.forM (ensureFoldable tree)
  return .ofList names

section

variable {m : Type → Type} [Monad m]

/-- Adds warnings. -/
def warn (warnings : List Warning) : Step m Unit := modify (· ++ warnings)

/-- A result that needs no files. -/
def decided {β : Type} (result : Except Error β) : Step m β :=
  match result with
  | .ok b => pure b
  | .error e => throw e

/-- A dashboard, with the warnings of its layout. -/
def drawn (d : QueueDashboard Float) : Step m (QueueDashboard Float) := do
  warn (Warning.ofLayout d.layout)
  return d

/-- The dashboard of a snapshot with queues folded. -/
def dashboard (c : Context) (records : List (QueueRecord Float)) (fold : List String) :
    Step m (QueueDashboard Float) := do
  let width ← decided c.width
  warn (Warning.ofRecords records)
  let loaded ← drawn ((QueueDashboard.new width).load records)
  let folded ← decided (foldedSet loaded.tree fold)
  folded.names.foldlM (fun d name => drawn (d.toggleFold name).2) loaded

/-- The dashboard with a queue selected, if one is named. -/
def selected (d : QueueDashboard Float) : Option String → Step m (QueueDashboard Float)
  | none => return d
  | some name => do
    decided (ensureQueue d.tree name)
    drawn (d.select name)

end

section

variable {m : Type → Type} [Monad m] [FileStore m]

/-- A result of files. -/
def stored {β : Type} (action : m (Except Error β)) : Step m β := do
  decided (← liftM action)

/-- The queues of a snapshot. -/
def loadQueues (c : Context) (input : Option String) : Step m (List (QueueRecord Float)) := do
  let path ← decided (c.input .queues input)
  stored do return (← Snapshot.loadQueues path).mapError .ofSnapshot

/-- The metrics of a snapshot. -/
def loadMetrics (c : Context) (input : Option String) : Step m (ClusterMetrics Float) := do
  let path ← decided (c.input .metrics input)
  stored do return (← Snapshot.loadMetrics path).mapError .ofSnapshot

/-- Puts a picture where it is wanted. -/
def publish (c : Context) (picture : PictureOptions) (scene : Scene Float) : Step m Printed := do
  let svg := Svg.render (!picture.still && c.config.defaults.animate) scene
  match picture.out with
  | none => return { output := printed c.globals (withoutEnd svg) }
  | some path =>
    stored do return (← FileStore.write path svg).mapError .file
    return { notice := notice c.globals "Wrote" path }

/-- The configuration file. -/
def configFile (env : Config.Environment.Variables) (g : Globals) : String :=
  g.config.getD (Config.path env)

/-- The configuration of commands that read snapshots. A file that is named has to be right; the
usual one may be missing or wrong. -/
def loadConfig (env : Config.Environment.Variables) (g : Globals) : Step m Config :=
  match g.config with
  | some path => stored do return (← Config.load env path).mapError .config
  | none => liftM (Config.loadOrDefault env : m Config)

/-- Writes a configuration file with the built-in settings. An existing one is kept unless forced.
-/
def writeConfig (env : Config.Environment.Variables) (g : Globals) (force : Bool) :
    Step m Printed := do
  let path := configFile env g
  let present ← liftM (FileStore.entryExists path : m Bool)
  if present && !force then throw (.configExists path)
  stored do return (← Config.save {} path).mapError .config
  return { notice := notice g "Created" path }

/-- Prints the configuration; without a file that is the built-in one. -/
def printConfig (env : Config.Environment.Variables) (g : Globals) : Step m Printed := do
  let path := configFile env g
  let present ← liftM (FileStore.entryExists path : m Bool)
  let config ←
    if present then stored (do return (← Config.load env path).mapError .config) else pure {}
  match config.toToml with
  | some text => return { output := printed g (withoutEnd text) }
  | none => throw (.config .notWritable)

/-- A command on a snapshot. Those on the configuration do not come here. -/
def runSnapshot (c : Context) : Command → Step m Printed
  | .renderQueues input picture select fold => do
    let records ← loadQueues c input
    let d ← dashboard c records fold
    let d ← selected d select
    publish c picture d.scene
  | .layoutQueues input fold => do
    let records ← loadQueues c input
    warn (Warning.ofRecords records)
    let tree := QueueTree.build records
    let folded ← decided (foldedSet tree fold)
    let layout := TreeLayout.compute tree folded
    warn (Warning.ofLayout layout)
    return c.report (.ofLayout layout)
  | .listQueues input => do
    return c.report (.ofQueues (← loadQueues c input))
  | .listCharts input select => do
    let records ← loadQueues c input
    let d ← dashboard c records []
    let d ← selected d select
    return c.report (.ofPlan d.chartPlan)
  | .renderCluster input picture => do
    let metrics ← loadMetrics c input
    let width ← decided c.width
    publish c picture ((ClusterDashboard.new width).load metrics).scene
  | .showCluster input => do
    let metrics ← loadMetrics c input
    let width ← decided c.width
    let d := (ClusterDashboard.new width).load metrics
    return c.report (.ofCluster d.metrics d.chartPlan)
  | .initConfig _ | .showConfig | .configPath => return {}

/-- A command. -/
def run (env : Config.Environment.Variables) (g : Globals) : Command → Step m Printed
  | .initConfig force => writeConfig env g force
  | .showConfig => printConfig env g
  | .configPath => return { output := printed g (configFile env g) }
  | command => do
    let config ← loadConfig env g
    runSnapshot ⟨g, config⟩ command

/-- Why a program did not do what it was asked. -/
inductive Failure where
  | usage (fault : Arguments.Fault)
  | command (cause : Error)
  deriving Repr

/-- The code a program ends with. -/
def Failure.exitCode : Failure → Nat
  | .usage fault => if fault.isMistake then 2 else 0
  | .command cause => cause.exitCode

/-- How a program ended. -/
structure Outcome where
  printed : Printed := {}
  log : List String := []
  failure : Option Failure := none
  deriving Repr

/-- The code a program ends with. -/
def Outcome.exitCode (o : Outcome) : Nat :=
  match o.failure with
  | some failure => failure.exitCode
  | none => 0

/-- The version of the programs. -/
def version : String := "0.1.0"

/-- What goes to the output, with the version if that is asked for. -/
def Outcome.output (o : Outcome) : String :=
  match o.failure with
  | some (.usage (.version title)) => title ++ " " ++ version ++ "\n"
  | _ => o.printed.output

/-- What a failure adds to the output and to the error output. -/
def Failure.report : Failure → String × String
  | .usage .help => (grammar.usage, "")
  | .usage (.version _) => ("", "")
  | .usage _ => ("", grammar.usage)
  | .command cause => ("", cause.report)

/-- What a failure adds to the output and to the error output, if there is one. -/
def Outcome.report (o : Outcome) : String × String := (o.failure.map (·.report)).getD ("", "")

/-- All that goes to the standard output. -/
def Outcome.standardOutput (o : Outcome) : String := o.output ++ o.report.1

/-- A whole command line. -/
def runLine (env : Config.Environment.Variables) (words : List String) : m Outcome := do
  match parse (Config.Environment.lookup env) words with
  | .error fault => return { failure := some (.usage fault) }
  | .ok (g, command) =>
    let (ending, warnings) ← (run env g command).run.run []
    let filter := LogFilter.choose (Config.Environment.lookup env "RUST_LOG") g.verbosity
    let log := filter.lines warnings
    match ending with
    | .ok printed => return { printed, log }
    | .error cause => return { log, failure := some (.command cause) }

end

end QueueBoard.Command
