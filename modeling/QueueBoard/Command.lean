import QueueBoard.Arguments.Reader
import QueueBoard.Report
/-!
# Commands

What the command line can ask for, and the grammar it is asked in.
-/

namespace QueueBoard

/-- How a picture is to be made. -/
structure PictureOptions where
  /-- The file it goes to instead of the output. -/
  out : Option String := none
  still : Bool := false
  deriving Repr, DecidableEq

/-- What a command line asks for. A command without an input takes the configured one. -/
inductive Command where
  | renderQueues (input : Option String) (picture : PictureOptions) (select : Option String)
      (fold : List String)
  | layoutQueues (input : Option String) (fold : List String)
  | listQueues (input : Option String)
  | listCharts (input select : Option String)
  | renderCluster (input : Option String) (picture : PictureOptions)
  | showCluster (input : Option String)
  | initConfig (force : Bool)
  | showConfig
  | configPath
  deriving Repr, DecidableEq

namespace Command

/-- When status lines are colored. -/
inductive ColorMode where
  | auto
  | always
  | never
  deriving Repr, DecidableEq

/-- The names of the modes. -/
def ColorMode.names : List (String × ColorMode) :=
  [("auto", .auto), ("always", .always), ("never", .never)]

/-- The mode of a name. -/
def ColorMode.named? (name : String) : Option ColorMode := names.lookup name

/-- What all commands have in common. -/
structure Globals where
  config : Option String := none
  output : Option Report.Format := none
  color : ColorMode := .auto
  width : Option Float := none
  verbosity : Nat := 0
  quiet : Bool := false
  deriving Repr

open Arguments

/-- The options of every level. -/
def globalSwitches (title : String) : List Switch :=
  [{ name := "config", takes := .one .path, envName := some "QUEUESCOPE_CONFIG" },
    { name := "output", letter := some 'o', takes := .one (.oneOf (Report.Format.names.map (·.1)))
      envName := some "QUEUESCOPE_OUTPUT" },
    { name := "color", takes := .one (.oneOf (ColorMode.names.map (·.1))) },
    { name := "width", letter := some 'w', takes := .one .number },
    { name := "verbose", letter := some 'v', takes := .count },
    { name := "quiet", letter := some 'q', takes := .flag }] ++ ubiquitous title

/-- The name of the program. -/
def program : String := "queuescope"

/-- A level with options of its own. Its title tells the names of the levels above it, too. -/
def level (above name : String) (aliases : List String) (own : List Switch) (inner : List Level) :
    Level :=
  { name, aliases, switches := globalSwitches (above ++ name) ++ own, inner }

/-- The snapshot of a command. -/
def inputSwitch : Switch := { name := "input", letter := some 'i', takes := .one .path }

/-- The options of pictures. -/
def pictureSwitches : List Switch :=
  [{ name := "out", takes := .one .path }, { name := "no-animate", takes := .flag }]

/-- The queue whose charts are shown. -/
def selectSwitch : Switch := { name := "select", letter := some 's', takes := .one .text }

/-- The queues to fold. -/
def foldSwitch : Switch := { name := "fold", letter := some 'f', takes := .many .text }

/-- The subcommands on queues. -/
def queueLevels : List Level :=
  let level := level (program ++ "-queues-")
  [level "render" [] (inputSwitch :: pictureSwitches ++ [selectSwitch, foldSwitch]) [],
    level "layout" [] [inputSwitch, foldSwitch] [],
    level "list" ["ls"] [inputSwitch] [],
    level "charts" [] [inputSwitch, selectSwitch] []]

/-- The subcommands on the cluster. -/
def clusterLevels : List Level :=
  let level := level (program ++ "-cluster-")
  [level "render" [] (inputSwitch :: pictureSwitches) [], level "show" [] [inputSwitch] []]

/-- The subcommands on the configuration. -/
def configLevels : List Level :=
  let level := level (program ++ "-config-")
  [level "init" [] [{ name := "force", takes := .flag }] [], level "show" [] [] [],
    level "path" [] [] []]

/-- The grammar. -/
def grammar : Level :=
  level "" program [] []
    [level (program ++ "-") "queues" ["q"] [] queueLevels,
      level (program ++ "-") "cluster" ["c"] [] clusterLevels,
      level (program ++ "-") "config" [] [] configLevels]

/-- The common part of a command line. -/
def globalsOf (r : Reading) : Globals where
  config := r.value? "config"
  output := (r.value? "output").bind Report.Format.named?
  color := ((r.value? "color").bind ColorMode.named?).getD .auto
  width := (r.value? "width").bind Decimal.readFloat
  verbosity := r.count "verbose"
  quiet := r.flag "quiet"

/-- The command of a command line. -/
def ofReading (r : Reading) : Option Command :=
  let input := r.value? "input"
  let picture : PictureOptions := ⟨r.value? "out", r.flag "no-animate"⟩
  match r.path with
  | ["queues", "render"] => some (.renderQueues input picture (r.value? "select") (r.values "fold"))
  | ["queues", "layout"] => some (.layoutQueues input (r.values "fold"))
  | ["queues", "list"] => some (.listQueues input)
  | ["queues", "charts"] => some (.listCharts input (r.value? "select"))
  | ["cluster", "render"] => some (.renderCluster input picture)
  | ["cluster", "show"] => some (.showCluster input)
  | ["config", "init"] => some (.initConfig (r.flag "force"))
  | ["config", "show"] => some .showConfig
  | ["config", "path"] => some .configPath
  | _ => none

/-- The command of a list of words. -/
def parse (lookup : String → Option String) (words : List String) :
    Except Fault (Globals × Command) := do
  let reading ← read lookup grammar words
  match ofReading reading with
  | some command => return (globalsOf reading, command)
  | none => throw .missingCommand

end Command

end QueueBoard
