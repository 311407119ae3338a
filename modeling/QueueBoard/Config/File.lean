import QueueBoard.Config.Environment
import QueueBoard.Files
import QueueBoard.Toml.Reader
import QueueBoard.Toml
/-!
# The configuration file

Where it is, what it says together with the environment, and how it is written.
-/

namespace QueueBoard.Config

/-- Why a configuration cannot be loaded or saved. -/
inductive Error where
  | invalid (cause : Invalid)
  /-- The file is no TOML, or cannot be read. -/
  | malformed
  | setting (cause : Setting.Error)
  /-- A number does not fit the file. -/
  | notWritable
  | file (cause : FileError)
  deriving Repr

/-- Where the configuration file is unless one is named. A directory that does not begin at the root
does not count. -/
def path (env : Environment.Variables) : String :=
  let rooted := fun name => (Environment.lookup env name).filter (·.startsWith "/")
  let base :=
    match rooted "XDG_CONFIG_HOME" with
    | some dir => dir
    | none => joined ((Environment.lookup env "HOME").getD "") ".config"
  joined (joined base "queuescope") "config.toml"
where
  joined (directory name : String) : String :=
    if directory.isEmpty || directory.endsWith "/" then directory ++ name
    else directory ++ "/" ++ name

/-- The configuration of the layers. -/
def ofLayers (file env : Setting) : Except Error Config :=
  match ofSetting ((builtIn.overlay file).overlay env) with
  | .error cause => .error (.setting cause)
  | .ok config =>
    match config.fault? with
    | some cause => .error (.invalid cause)
    | none => .ok config

/-- The layer of a document. -/
def fileLayer (text : String) : Except Error Setting :=
  match Toml.parse text with
  | some members => .ok (.table (Setting.ofMembers members))
  | none => .error .malformed

/-- The configuration that a document alone describes, not checked any further. -/
def ofToml (text : String) : Option Config := do
  let members ← Toml.parse text
  (ofSetting (.table (Setting.ofMembers members))).toOption

/-- The tables of a configuration. Files that are not set are left out. -/
def toTables (c : Config) : List (String × List (String × Toml)) :=
  let file := fun (name : String) (value : Option String) =>
    match value with
    | some path => [(name, Toml.string path)]
    | none => []
  [("defaults",
      [("canvas_width", .float c.defaults.canvasWidth)] ++
        file "queues_file" c.defaults.queuesFile ++
        file "metrics_file" c.defaults.metricsFile ++
        [("animate", .boolean c.defaults.animate), ("output", .string c.defaults.output)]),
    ("tui",
      [("tick_ms", .integer c.timing.tickMs), ("render_ms", .integer c.timing.renderMs),
        ("double_click_ms", .integer c.timing.doubleClickMs)])]

/-- The document of a configuration. -/
def toToml (c : Config) : Option String := Toml.documentText c.toTables

section

variable {m : Type → Type} [Monad m] [FileStore m]

/-- The layer of a file; one that is not there is empty. -/
def readLayer (path : String) : m (Except Error Setting) := do
  match ← FileStore.locate path with
  | none => return .ok (.table [])
  | some found =>
    match ← FileStore.read found with
    | .ok text => return fileLayer text
    | .error _ => return .error .malformed

/-- The configuration of a file and the environment. -/
def load (env : Environment.Variables) (path : String) : m (Except Error Config) := do
  match ← readLayer path with
  | .ok layer => return ofLayers layer (Environment.layer env)
  | .error e => return .error e

/-- The configuration of the usual file and the environment, or the built-in one if that fails. -/
def loadOrDefault (env : Environment.Variables) : m Config := do
  return (← load env (path env)).toOption.getD {}

/-- Writes a configuration, making the directories its file lies in. -/
def save (c : Config) (path : String) : m (Except Error Unit) := do
  let made ←
    match FilePath.parent? path with
    | some directory => FileStore.makeDirectories directory
    | none => pure (.ok ())
  match made with
  | .error e => return .error (.file e)
  | .ok () =>
    match c.toToml with
    | none => return .error .notWritable
    | some text => return (← FileStore.write path text).mapError .file

end

end QueueBoard.Config
