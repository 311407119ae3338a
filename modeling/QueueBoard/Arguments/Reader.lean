import QueueBoard.Arguments
/-!
# Reading command lines

Words are taken one by one. An option waits for its value until the next word; a word that begins
with a dash is never a value. What an option was given is checked when the next option or the end
comes, so of two mistakes the one that is met first by this rule is told, and those of a subcommand
before those of the level above it.
-/

namespace QueueBoard.Arguments

/-- Where a value came from. -/
inductive Origin where
  | commandLine
  | environment
  deriving Repr, DecidableEq

/-- An option and what it was given. -/
structure Given where
  name : String
  values : List String
  origin : Origin
  deriving Repr, DecidableEq

/-- A command line taken apart: the names of the subcommands, and what was given on each level, the
outermost first. -/
structure Reading where
  path : List String := []
  levels : List (List Given) := []
  deriving Repr, DecidableEq

namespace Reading

/-- What an option was given: on the innermost level that the command line gives it on, or else on
the innermost one that has it from the environment. -/
def given? (r : Reading) (name : String) : Option Given :=
  let all := r.levels.reverse.flatten.filter (·.name == name)
  match all.find? (·.origin == .commandLine) with
  | some g => some g
  | none => all.head?

/-- Whether a flag is set. -/
def flag (r : Reading) (name : String) : Bool := (r.given? name).isSome

/-- How many times a counter was given. -/
def count (r : Reading) (name : String) : Nat :=
  match r.given? name with
  | some g => g.values.length
  | none => 0

/-- All values of an option. -/
def values (r : Reading) (name : String) : List String :=
  match r.given? name with
  | some g => g.values
  | none => []

/-- The value of an option. -/
def value? (r : Reading) (name : String) : Option String := (r.values name).head?

end Reading

/-- A level half read. -/
structure Progress where
  given : List Given := []
  /-- The option that waits for a value, or whose value waits to be checked. -/
  pending : Option (Switch × Option String) := none

namespace Progress

/-- Whether the last option still waits for its value. -/
def isWaiting (p : Progress) : Bool :=
  match p.pending with
  | some (_, none) => true
  | _ => false

/-- Whether an option was given before. -/
def has (p : Progress) (name : String) : Bool := p.given.any (·.name == name)

/-- The level with one more value of an option. -/
def add (p : Progress) (name value : String) (origin : Origin) : Progress :=
  if p.has name then
    { p with given := p.given.map fun g =>
        if g.name == name then { g with values := g.values ++ [value] } else g }
  else { p with given := p.given ++ [⟨name, [value], origin⟩] }

/-- The level with an option's value checked and kept. -/
def keep (p : Progress) (s : Switch) (value? : Option String) (origin : Origin) :
    Except Fault Progress :=
  match s.takes, value? with
  | .help, _ => .error .help
  | .version title, _ => .error (.version title)
  | .flag, _ => if p.has s.name then .error .givenTwice else .ok (p.add s.name "" origin)
  | .count, _ => .ok (p.add s.name "" origin)
  | .one _, none | .many _, none => .error .invalidValue
  | .one kind, some value =>
    if p.has s.name then .error .givenTwice
    else match kind.fault? value with
      | some fault => .error fault
      | none => .ok (p.add s.name value origin)
  | .many kind, some value =>
    match kind.fault? value with
    | some fault => .error fault
    | none => .ok (p.add s.name value origin)

/-- The level with nothing left to check. -/
def settle (p : Progress) : Except Fault Progress :=
  match p.pending with
  | none => .ok p
  | some (s, value?) => { p with pending := none }.keep s value? .commandLine

/-- The level with the waiting option given its value. -/
def supply (p : Progress) (value : String) : Progress :=
  match p.pending with
  | some (s, none) => { p with pending := some (s, some value) }
  | _ => p

/-- The level with an option met, and the value attached to it if there is one. -/
def meet (p : Progress) (s : Switch) (attached : Option String) : Except Fault Progress := do
  let p ← p.settle
  if s.takes.wantsValue && attached.isNone then return { p with pending := some (s, none) }
  else p.keep s attached .commandLine

/-- The level with the values that the environment gives. -/
def fromEnvironment (lookup : String → Option String) (switches : List Switch) (p : Progress) :
    Except Fault Progress :=
  switches.foldlM (fun p s =>
    match s.envName.bind lookup with
    | some value => if p.has s.name then .ok p else p.keep s (some value) .environment
    | none => .ok p) p

end Progress

/-- A level and a word of it that begins with two dashes. -/
def readLong (l : Level) (p : Progress) (body : List Char) : Except Fault Progress :=
  let name := String.ofList (body.takeWhile (· != '='))
  match l.long? name, body.dropWhile (· != '=') with
  | none, _ => .error .unknownArgument
  | some s, [] => p.meet s none
  | some s, _ :: value =>
    if s.takes.wantsValue then p.meet s (some (String.ofList value)) else .error .unwantedValue

/-- A level and the letters of a word that begins with one dash. The first option that wants a value
takes the rest of the word, less an equals sign. -/
def readShort (l : Level) (p : Progress) : List Char → Except Fault Progress
  | [] => .ok p
  | letter :: rest =>
    match l.short? letter with
    | none => .error .unknownArgument
    | some s =>
      if s.takes.wantsValue then
        match rest with
        | [] => p.meet s none
        | '=' :: value => p.meet s (some (String.ofList value))
        | value => p.meet s (some (String.ofList value))
      else do readShort l (← p.meet s none) rest

/-- The words after the explaining subcommand have to lead to a level. -/
def readHelp (l : Level) : List String → Fault
  | [] => .help
  | word :: rest =>
    match l.find? word with
    | some sub => readHelp sub rest
    | none =>
      if l.hasCommand word then if rest.isEmpty then .help else .unknownCommand
      else .unknownCommand

/-- What is wrong with a word that is neither an option nor a value nor a subcommand. -/
def straying (l : Level) (afterDashes : Bool) (word : String) : Fault :=
  if l.inner.isEmpty || (afterDashes && l.hasCommand word) then .unknownArgument
  else .unknownCommand

/-- What ends a level: its last value, the environment, and whether there is enough. -/
def finish (lookup : String → Option String) (l : Level) (p : Progress) (hasInner : Bool) :
    Except Fault (List Given) := do
  let p ← p.settle
  let p ← p.fromEnvironment lookup l.switches
  if !hasInner && !l.inner.isEmpty then
    throw (if p.given.isEmpty then .nothingGiven else .missingCommand)
  return p.given

/-- The words of a level and all below it. -/
def readWords (lookup : String → Option String) (l : Level) (p : Progress) :
    List String → Except Fault Reading
  | [] => do return { levels := [← finish lookup l p false] }
  | word :: rest =>
    match (if p.isWaiting then none else l.find? word) with
    | some sub => do
      let reading ← readWords lookup sub {} rest
      let own ← finish lookup l p true
      return { path := sub.name :: reading.path, levels := own :: reading.levels }
    | none =>
      if !p.isWaiting && l.hasCommand word then .error (readHelp l rest)
      else
        match word.toList with
        | ['-', '-'] =>
          match rest with
          | [] => readWords lookup l p []
          | word :: _ => .error (straying l true word)
        | '-' :: '-' :: body => do readWords lookup l (← readLong l p body) rest
        | '-' :: letter :: body => do readWords lookup l (← readShort l p (letter :: body)) rest
        | _ =>
          if p.isWaiting then readWords lookup l (p.supply word) rest
          else .error (straying l false word)

/-- A command line taken apart. -/
def read (lookup : String → Option String) (program : Level) (words : List String) :
    Except Fault Reading :=
  readWords lookup program {} words

end QueueBoard.Arguments
