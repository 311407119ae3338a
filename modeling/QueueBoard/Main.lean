import QueueBoard.Command.Run
/-!
# The command line program

Runs a command line on the files and the environment of the machine. The output goes to the standard
output; the log, what is told about written files, and errors go to the standard error.
-/

namespace QueueBoard

/-- The error of a failed operation on files. -/
def FileError.ofFailure : IO.Error → FileError
  | .noFileOrDirectory .. => .notFound
  | e => .other (toString e)

/-- Runs an operation on files. -/
def FileError.attempt {β : Type} (action : IO β) : IO (Except FileError β) := do
  return (← action.toBaseIO).mapError .ofFailure

/-- Whether there is anything at a path. -/
def pathExists (path : String) : IO Bool := do
  return (← (IO.FS.realPath path).toBaseIO).toOption.isSome

instance : FileStore IO where
  read path := do
    match ← FileError.attempt (IO.FS.readBinFile path) with
    | .ok bytes =>
      match String.fromUTF8? bytes with
      | some text => return .ok text
      | none => return .error .notText
    | .error e => return .error e
  write path text := FileError.attempt (IO.FS.writeFile path text)
  makeDirectories path := FileError.attempt (IO.FS.createDirAll path)
  entryExists := pathExists
  locate path := do
    if path.startsWith "/" then
      return if ← pathExists path then some path else none
    let levels := ((toString (← IO.currentDir)).splitOn "/").length
    for candidate in FileTree.candidates levels path do
      if ← pathExists candidate then return some candidate
    return none

namespace Command

/-- The variables of the environment that the program looks at. -/
def variableNames : List String :=
  ["HOME", "XDG_CONFIG_HOME", "RUST_LOG", "QUEUESCOPE_CONFIG", "QUEUESCOPE_OUTPUT"] ++
    ["CANVAS_WIDTH", "QUEUES_FILE", "METRICS_FILE", "ANIMATE", "OUTPUT"].map
      ("QUEUESCOPE_DEFAULTS__" ++ ·) ++
    ["TICK_MS", "RENDER_MS", "DOUBLE_CLICK_MS"].map ("QUEUESCOPE_TUI__" ++ ·)

/-- The variables that are set. -/
def environment : IO Config.Environment.Variables :=
  variableNames.filterMapM fun name => return (← IO.getEnv name).map (name, ·)

end Command

end QueueBoard

/-- The program. -/
def main (words : List String) : IO UInt32 := do
  let outcome ← QueueBoard.Command.runLine (← QueueBoard.Command.environment) words
  for line in outcome.log do IO.eprintln line
  IO.print outcome.standardOutput
  IO.eprint (outcome.printed.notice ++ outcome.report.2)
  return outcome.exitCode.toUInt32
