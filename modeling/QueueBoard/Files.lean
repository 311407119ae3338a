/-!
# Files

What programs do with files: read, write, look, and make directories. A `FileStore` is a monad that
can; `FileTree` is one made of plain data, with paths resolved name by name from the root or from
the working directory.
-/

namespace QueueBoard

/-- Why a file cannot be used. -/
inductive FileError where
  | notFound
  | notDirectory
  | isDirectory
  | nameTooLong
  /-- The path holds a zero character. -/
  | badPath
  /-- The content is no text. -/
  | notText
  | other (reason : String)
  deriving Repr, BEq, DecidableEq

/-- The message of an error. -/
def FileError.message : FileError → String
  | .notFound => "No such file or directory (os error 2)"
  | .notDirectory => "Not a directory (os error 20)"
  | .isDirectory => "Is a directory (os error 21)"
  | .nameTooLong => "File name too long (os error 36)"
  | .badPath => "file name contained an unexpected NUL byte"
  | .notText => "stream did not contain valid UTF-8"
  | .other reason => reason

/-- A monad with files. -/
class FileStore (m : Type → Type) where
  /-- The text of a file. -/
  read : (path : String) → m (Except FileError String)
  /-- Replaces a file, or makes it in a directory that exists. -/
  write : (path text : String) → m (Except FileError Unit)
  /-- Makes a directory and all above it that are missing. -/
  makeDirectories : (path : String) → m (Except FileError Unit)
  /-- Whether there is a file or a directory at a path. -/
  entryExists : (path : String) → m Bool
  /-- The file of a path; one that does not begin at the root is looked for in the working
  directory, then in every directory above it. -/
  locate : (path : String) → m (Option String)

namespace FilePath

/-- The names on a path, and whether it begins at the root. A slash at the end stands for the
directory itself. -/
def split (path : String) : Bool × List String :=
  let parts := path.splitOn "/"
  let rooted := path.startsWith "/"
  let names := parts.filter (!·.isEmpty)
  (rooted, if parts.length > 1 && parts.getLast? == some "" then names ++ ["."] else names)

/-- The directory that a path lies in; the root and the empty path lie in none. -/
def parent? (path : String) : Option String :=
  let (rooted, names) := split path
  let names := match names with
    | "." :: rest => if rooted then rest.filter (· != ".") else "." :: rest.filter (· != ".")
    | names => names.filter (· != ".")
  if names.isEmpty then none
  else some ((if rooted then "/" else "") ++ "/".intercalate names.dropLast)

/-- The last name on a path; a path that leads upwards at its end has none. -/
def fileName? (path : String) : Option String :=
  let names := (split path).2.filter (· != ".")
  names.getLast?.filter (· != "..")

end FilePath

/-- Files and directories by their names from the root. -/
structure FileTree where
  workingDirectory : List String := []
  files : List (List String × String) := []
  directories : List (List String) := []
  deriving Repr

namespace FileTree

/-- Whether there is a directory at a place. The working directory and all above it exist. -/
def isDirectory (t : FileTree) (place : List String) : Bool :=
  place.isPrefixOf t.workingDirectory || t.directories.contains place

/-- The text of the file at a place. -/
def file? (t : FileTree) (place : List String) : Option String := t.files.lookup place

/-- The place that a name leads to from another. -/
def step (t : FileTree) (place : List String) (name : String) : Except FileError (List String) :=
  if t.isDirectory place then
    if name == "." then .ok place
    else if name == ".." then .ok place.dropLast
    else if 255 < name.utf8ByteSize then .error .nameTooLong
    else .ok (place ++ [name])
  else if (t.file? place).isSome then .error .notDirectory
  else .error .notFound

/-- The place of a path. -/
def resolve (t : FileTree) (path : String) : Except FileError (List String) :=
  if path.isEmpty then .error .notFound
  else if path.toList.contains '\x00' then .error .badPath
  else
    let (rooted, names) := FilePath.split path
    names.foldlM t.step (if rooted then [] else t.workingDirectory)

/-- The text of a file. -/
def read (t : FileTree) (path : String) : Except FileError String := do
  let place ← t.resolve path
  if t.isDirectory place then throw .isDirectory
  match t.file? place with
  | some text => return text
  | none => throw .notFound

/-- The tree with a file replaced or made. -/
def putFile (t : FileTree) (place : List String) (text : String) : FileTree :=
  { t with files := replace t.files }
where
  replace : List (List String × String) → List (List String × String)
    | [] => [(place, text)]
    | (p, old) :: rest => if p == place then (place, text) :: rest else (p, old) :: replace rest

/-- Replaces a file, or makes it. -/
def write (t : FileTree) (path text : String) : Except FileError FileTree := do
  let place ← t.resolve path
  if t.isDirectory place then throw .isDirectory
  return t.putFile place text

/-- Makes every directory on the way that is missing. -/
def makePlaces (t : FileTree) (place : List String) : List String → Except FileError FileTree
  | [] => .ok t
  | name :: rest => do
    let next ← t.step place name
    let t ←
      if t.isDirectory next then .ok t
      else if (t.file? next).isSome then .error .notDirectory
      else .ok { t with directories := t.directories ++ [next] }
    makePlaces t next rest

/-- Makes a directory and all above it. -/
def makeDirectories (t : FileTree) (path : String) : Except FileError FileTree :=
  if path.toList.contains '\x00' then .error .badPath
  else
    let (rooted, names) := FilePath.split path
    t.makePlaces (if rooted then [] else t.workingDirectory) names

/-- Whether there is anything at a path. -/
def entryExists (t : FileTree) (path : String) : Bool :=
  match t.resolve path with
  | .ok place => t.isDirectory place || (t.file? place).isSome
  | .error _ => false

/-- Whether there is a file at a path. -/
def isFile (t : FileTree) (path : String) : Bool := (t.read path).toOption.isSome

/-- The paths under which a file is looked for: the path itself, then the same in each directory
above. -/
def candidates (levels : Nat) (path : String) : List String :=
  (List.range (levels + 1)).map fun n => String.join (List.replicate n "../") ++ path

/-- The file of a path, in the working directory or above. -/
def locate (t : FileTree) (path : String) : Option String :=
  if path.startsWith "/" then if t.isFile path then some path else none
  else (candidates t.workingDirectory.length path).find? t.isFile

/-- The tree with a file and the directories it lies in; a path that leads nowhere changes nothing.
-/
def add (t : FileTree) (path text : String) : FileTree :=
  let t :=
    match FilePath.parent? path with
    | some directory => (t.makeDirectories directory).toOption.getD t
    | none => t
  (t.write path text).toOption.getD t

/-- A tree of nothing but a working directory with files in it. -/
def containing (workingDirectory : List String) (files : List (String × String)) : FileTree :=
  files.foldl (fun t (path, text) => t.add path text) { workingDirectory }

/-- The files of the working directory that are new or of another content than before, in the order
of their names. -/
def changesSince (t before : FileTree) : List (String × String) :=
  let changes := t.files.filterMap fun (place, text) =>
    if before.file? place == some text || !t.workingDirectory.isPrefixOf place then none
    else some ("/".intercalate (place.drop t.workingDirectory.length), text)
  changes.mergeSort fun a b => decide (a.1 ≤ b.1)

end FileTree

/-- Programs over plain data. -/
abbrev OnFileTree := StateM FileTree

namespace OnFileTree

/-- Runs a change that may fail; a failed one changes nothing. -/
def attempt (change : FileTree → Except FileError FileTree) :
    OnFileTree (Except FileError Unit) := do
  match change (← get) with
  | .ok t =>
    set t
    return .ok ()
  | .error e => return .error e

instance : FileStore OnFileTree where
  read path := do return (← get).read path
  write path text := attempt (·.write path text)
  makeDirectories path := attempt (·.makeDirectories path)
  entryExists path := do return (← get).entryExists path
  locate path := do return (← get).locate path

end OnFileTree

end QueueBoard
