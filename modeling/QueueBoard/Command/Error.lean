import QueueBoard.Config.File
import QueueBoard.Snapshot
/-!
# Why a command fails
-/

namespace QueueBoard.Command

/-- A snapshot that a command reads. -/
inductive Source where
  | queues
  | metrics
  deriving Repr, DecidableEq

/-- What a snapshot is called. -/
def Source.name : Source → String
  | .queues => "queue"
  | .metrics => "cluster metrics"

/-- The setting that names the snapshot's file. -/
def Source.setting : Source → String
  | .queues => "queues_file"
  | .metrics => "metrics_file"

/-- Why a command fails. -/
inductive Error where
  | noInput (source : Source)
  | unreadable (path : String)
  /-- The snapshot is no JSON, or not of the shape it has to have. -/
  | snapshot (cause : Snapshot.Error)
  | unknownQueue (name : String)
  | notFoldable (name : String)
  | width (given : Float)
  | configExists (path : String)
  | config (cause : Config.Error)
  | file (cause : FileError)
  deriving Repr

namespace Error

/-- The error of a snapshot. -/
def ofSnapshot : Snapshot.Error → Error
  | .unreadable path _ => .unreadable path
  | cause => .snapshot cause

/-- The code a program ends with. -/
def exitCode : Error → Nat
  | .unknownQueue _ => 4
  | .noInput _ | .notFoldable _ | .width _ | .configExists _ => 2
  | .snapshot _ => 5
  | .unreadable _ | .config _ | .file _ => 1

/-- What is wrong with a snapshot, as commands tell it. -/
def snapshotFault? : Snapshot.Error → Option String
  | .malformed => none
  | .notQueues => some "expected a queue array or a scheduler payload"
  | .notMetrics => some "expected a cluster metrics object"
  | .missing field => some ("missing `" ++ field ++ "`")
  | .shape cause => some cause.message
  | .unreadable _ reason => some reason

/-- The message, if it is told in these words. -/
def message? : Error → Option String
  | .noInput source => some ("No " ++ source.name ++ " snapshot given")
  | .unreadable path => some ("Cannot read " ++ path)
  | .snapshot cause => (snapshotFault? cause).map ("Invalid snapshot: " ++ ·)
  | .unknownQueue name => some ("Queue '" ++ name ++ "' not found")
  | .notFoldable name =>
    some ("Invalid value for --fold: queue '" ++ name ++ "' has no children to fold")
  | .width given =>
    some ("Invalid value for --width: expected a positive number of pixels, got " ++
      Decimal.Style.plain.text given)
  | .configExists _ => some "Configuration file already exists"
  | .config _ | .file _ => none

/-- The name of the error in reports. -/
def code? : Error → Option String
  | .noInput _ => some "queuescope::no_input"
  | .unreadable _ => some "queuescope::read_failed"
  | .snapshot _ => some "queuescope::invalid_snapshot"
  | .unknownQueue _ => some "queuescope::not_found"
  | .notFoldable _ | .width _ => some "queuescope::validation"
  | .configExists _ => some "queuescope::config_exists"
  | .config _ => some "queuescope::config"
  | .file _ => none

/-- What to do about it. -/
def help? : Error → Option String
  | .noInput source =>
    some ("Pass --input <FILE>, or set defaults." ++ source.setting ++
      " in the config file.\nRun: queuescope config path")
  | .unreadable _ => some "Check that the file exists and is readable."
  | .snapshot _ =>
    some ("Expected a scheduler payload " ++
      "(\x7b\"scheduler\": \x7b\"schedulerInfo\": ...\x7d\x7d),\n" ++
      "a JSON array of queue records, or a cluster metrics object.")
  | .unknownQueue _ => some "Run: queuescope queues list"
  | .configExists path => some ("Use --force to overwrite.\nLocation: " ++ path)
  | .notFoldable _ | .width _ | .config _ | .file _ => none

/-- What an error report says when its message is not fixed. -/
def headline : Error → String
  | .snapshot _ => "Invalid snapshot: no JSON"
  | .config (.invalid cause) => cause.message
  | .config _ => "Invalid configuration"
  | .file cause => cause.message
  | _ => "Failed"

/-- The report of an error: its code, its message and what to do. -/
def report (e : Error) : String :=
  let line := fun (start : String) (text : Option String) =>
    match text with
    | some text => start ++ text ++ "\n"
    | none => ""
  line "" e.code? ++ line "Error: " (some (e.message?.getD e.headline)) ++ line "Help: " e.help?

end Error

end QueueBoard.Command
