import QueueBoard.Decimal.Reading
/-!
# Grammars of command lines

A program is a tree of levels. Each level has options and, below it, the levels of its subcommands;
the options of all programs here are either flags, counters or options with a value.
-/

namespace QueueBoard.Arguments

/-- What a value has to be. -/
inductive ValueKind where
  | text
  /-- A path: anything but nothing. -/
  | path
  | number
  | oneOf (names : List String)
  deriving Repr, DecidableEq

/-- What an option takes. -/
inductive Taking where
  | flag
  | count
  | one (kind : ValueKind)
  | many (kind : ValueKind)
  | help
  /-- Tells the version of what has the given title. -/
  | version (title : String)
  deriving Repr, DecidableEq

/-- Whether a value is expected after the option. -/
def Taking.wantsValue : Taking → Bool
  | .one _ | .many _ => true
  | _ => false

/-- An option: two dashes and a name, or one dash and a letter. -/
structure Switch where
  name : String
  letter : Option Char := none
  takes : Taking
  /-- Name of the environment variable that gives the value if the command line does not. -/
  envName : Option String := none
  deriving Repr, DecidableEq

/-- One level of a program. -/
structure Level where
  name : String
  aliases : List String := []
  switches : List Switch
  inner : List Level := []
  deriving Repr

namespace Level

/-- The level of a subcommand's name. -/
def find? (l : Level) (word : String) : Option Level :=
  l.inner.find? fun sub => sub.name == word || sub.aliases.contains word

/-- The subcommand that explains others; there is one wherever there are others. -/
def helpName : String := "help"

/-- Whether a word names a subcommand. -/
def hasCommand (l : Level) (word : String) : Bool :=
  (l.find? word).isSome || (!l.inner.isEmpty && word == helpName)

/-- The option of a long name. -/
def long? (l : Level) (name : String) : Option Switch := l.switches.find? (·.name == name)

/-- The option of a letter. -/
def short? (l : Level) (letter : Char) : Option Switch := l.switches.find? (·.letter == some letter)

end Level

/-- The options every level has besides its own. -/
def ubiquitous (title : String) : List Switch :=
  [{ name := "help", letter := some 'h', takes := .help },
    { name := "version", letter := some 'V', takes := .version title }]

/-- Why a command line is not carried out. The last two are asked for and no mistake. -/
inductive Fault where
  | unknownArgument
  /-- A value is missing, empty where it must not be, or none of the ones there are. -/
  | invalidValue
  /-- A value is no number. -/
  | noNumber
  | unknownCommand
  | givenTwice
  /-- A flag has a value attached. -/
  | unwantedValue
  | missingCommand
  /-- Nothing at all is given where a subcommand is expected. -/
  | nothingGiven
  | help
  | version (title : String)
  deriving Repr, DecidableEq

/-- Whether a fault is a mistake. -/
def Fault.isMistake : Fault → Bool
  | .help | .version _ => false
  | _ => true

/-- What is wrong with a value. -/
def ValueKind.fault? (kind : ValueKind) (value : String) : Option Fault :=
  match kind with
  | .text => none
  | .path => if value.isEmpty then some .invalidValue else none
  | .number => if (Decimal.readFloat value).isSome then none else some .noNumber
  | .oneOf names => if names.contains value then none else some .invalidValue

/-! ## How a program is called -/

/-- The option as it is written on a command line. -/
def Switch.written (s : Switch) : String :=
  let short := match s.letter with
    | some letter => "-" ++ String.ofList [letter] ++ ", "
    | none => "    "
  short ++ "--" ++ s.name ++ (if s.takes.wantsValue then " <VALUE>" else "")

namespace Level

mutual
/-- The words that call the commands of a level. -/
def calls (above : String) : Level → List String
  | ⟨name, _, _, []⟩ => [above ++ name]
  | ⟨name, _, _, sub :: rest⟩ => callsOf (above ++ name ++ " ") (sub :: rest)

/-- The words that call the commands of levels. -/
def callsOf (above : String) : List Level → List String
  | [] => []
  | l :: rest => calls above l ++ callsOf above rest
end

/-- What a program can be asked for, and its options. This is a summary made from the grammar; it
stands in for the help text of the program, whose sentences on every command and option are not
kept. -/
def usage (l : Level) : String :=
  let commands := (l.calls "").map ("  " ++ · ++ "\n")
  let options := l.switches.map fun s => "  " ++ s.written ++ "\n"
  "Commands:\n" ++ String.join commands ++ "\nOptions:\n" ++ String.join options

end Level

end QueueBoard.Arguments
