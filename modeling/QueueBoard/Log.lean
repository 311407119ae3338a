import QueueBoard.Decimal.Reading
import QueueBoard.Queue.Layout
import QueueBoard.Text.Basic
/-!
# The log

What is told besides the output, as warnings: oddities of a snapshot, each time its tree is built or
laid out. A filter says which warnings are shown. It is a list of directives, each a level, for all
targets or for those whose name begins with a given text; the longest text that fits decides.
-/

namespace QueueBoard

/-- A warning. -/
inductive Warning where
  /-- An oddity of a snapshot. -/
  | tree (cause : TreeWarning)
  /-- A queue lists one that is already placed. -/
  | reachedTwice (queue : String)
  deriving Repr, DecidableEq

namespace Warning

/-- A name of a field and its value as they stand after a message. -/
def field (name value : String) : String := " " ++ name ++ "=" ++ value

/-- The message with its fields. -/
def message : Warning → String
  | .tree (.duplicate queue) => "duplicate queue record ignored" ++ field "queue" queue
  | .tree (.selfChild queue) => "queue lists itself as a child" ++ field "queue" queue
  | .tree (.danglingChild queue child) =>
    "dangling child reference" ++ field "queue" queue ++ field "child" child
  | .tree (.danglingParent queue parent) =>
    "dangling parent reference" ++ field "queue" queue ++ field "parent" (Text.quoted parent)
  | .tree .noRoot => "no root queue in snapshot"
  | .reachedTwice queue => "queue reached twice; skipping repeated subtree" ++ field "queue" queue

/-- The line of the log. -/
def line (w : Warning) : String := "WARN " ++ w.message

/-- The part of the program that warns. -/
def target : Warning → String
  | .tree _ => "queuescope_core::tree"
  | .reachedTwice _ => "queuescope_core::layout"

/-- The warnings about a snapshot's records. -/
def ofRecords (records : List (QueueRecord Float)) : List Warning :=
  (QueueTree.warnings records).map .tree

/-- The warnings about a placement. -/
def ofLayout (layout : TreeLayout Float) : List Warning := layout.repeats.map .reachedTwice

end Warning

/-- How much is told: nothing at 0, errors at 1, warnings at 2 and more from there. -/
abbrev Verbosity := Nat

/-- A rule of a filter. -/
structure LogDirective where
  /-- What the name of a target has to begin with. -/
  target : Option String
  /-- The rule is about spans of work and not about single warnings. -/
  spansOnly : Bool := false
  level : Verbosity
  deriving Repr, DecidableEq

/-- A filter of warnings. -/
structure LogFilter where
  directives : List LogDirective
  deriving Repr, DecidableEq

namespace LogFilter

/-- The level of a word: a number or a name in any case. -/
def level? (word : List Char) : Option Verbosity :=
  let digits := match word with
    | '+' :: rest => rest
    | word => word
  if !digits.isEmpty && digits.all Char.isDigit then
    let n := Decimal.digitsOnto 0 digits
    if n ≤ 5 then some n else none
  else
    [("", 1), ("off", 0), ("error", 1), ("warn", 2), ("info", 3), ("debug", 4), ("trace", 5)].lookup
      (String.ofList (word.map Char.toLower))

/-- The level after an equals sign; without one everything is told. -/
def levelOrAll? (word : List Char) : Option Verbosity :=
  if word.isEmpty then some 5 else level? word

/-- Whether a directive may begin with a character. -/
def mayStart (c : Char) : Bool :=
  c.isAlphanum || c == '-' || c == ':' || c == '_' || c == '[' || 0x80 ≤ c.toNat

/-- What follows the name of a span, its brackets closed. -/
def afterSpan? (text : List Char) : Option (List Char) :=
  match text.dropWhile (· != ']') with
  | ']' :: rest => some rest
  | _ => none

/-- The directive of a text. -/
def directive? (text : List Char) : Option LogDirective := do
  let trimmed := Text.trim text
  if !(trimmed.head?.any mayStart) then none
  else
    -- blanks around a directive belong to the name of the target
    let name := text.takeWhile fun c => c != '=' && c != '['
    let target := if name.isEmpty then none else some (String.ofList name)
    match text.dropWhile fun c => c != '=' && c != '[' with
    | [] =>
      match level? text with
      | some level => some { target := none, level }
      | none => some { target, level := 5 }
    | '=' :: rest => some { target, level := ← levelOrAll? rest }
    | _ :: rest =>
      match ← afterSpan? rest with
      | [] => some { target, spansOnly := true, level := 5 }
      | '=' :: rest => some { target, spansOnly := true, level := ← levelOrAll? rest }
      | _ => none

/-- The filter of a text: directives separated by commas. Without any, only errors are told. -/
def parse (text : String) : Option LogFilter := do
  let parts := (text.splitOn ",").filter (!·.isEmpty)
  if parts.isEmpty then return ⟨[⟨none, false, 1⟩]⟩
  else return ⟨← parts.mapM fun part => directive? part.toList⟩

/-- How specific a directive is. -/
def specificity (d : LogDirective) : Nat :=
  match d.target with
  | some target => target.utf8ByteSize + 1
  | none => 0

/-- The directive that decides about a target: the most specific that fits, the last of several. -/
def deciding? (f : LogFilter) (target : String) : Option LogDirective :=
  let fitting := f.directives.filter fun d =>
    !d.spansOnly && (match d.target with
      | some start => target.startsWith start
      | none => true)
  fitting.foldl (fun best d =>
    match best with
    | some b => if specificity b ≤ specificity d then some d else some b
    | none => some d) none

/-- Whether a warning is told. -/
def tells (f : LogFilter) (w : Warning) : Bool := (f.deciding? w.target).any (2 ≤ ·.level)

/-- The filter without a wish of the user: warnings, and more the more often it is asked for. -/
def byDefault (verbosity : Nat) : LogFilter := ⟨[⟨none, false, 2 + verbosity⟩]⟩

/-- The filter that the environment asks for, if it makes sense, or else the default. -/
def choose (wish : Option String) (verbosity : Nat) : LogFilter :=
  (wish.bind parse).getD (byDefault verbosity)

/-- The lines that are told. -/
def lines (f : LogFilter) (warnings : List Warning) : List String :=
  (warnings.filter f.tells).map Warning.line

end LogFilter

end QueueBoard
