import QueueBoard.Toml.Number
import QueueBoard.Toml.Table
/-!
# Reading TOML

A document is a list of statements: key and value, a header, or a header in double brackets. Arrays
and inline tables may be nested 79 deep.
-/

namespace QueueBoard.Toml

/-- Whether a character may stand in a comment. -/
def isCommentChar (c : Char) : Bool := isPlain c

/-- What follows blanks, line breaks and comments; `none` if a comment holds a control character. -/
def skipLoose : (comment : Bool) → List Char → Option (List Char)
  | _, [] => some []
  | _, '\r' :: '\n' :: rest => skipLoose false rest
  | comment, c :: rest =>
    if c == '\n' then skipLoose false rest
    else if comment then if isCommentChar c then skipLoose true rest else none
    else if isBlank c then skipLoose false rest
    else if c == '#' then skipLoose true rest
    else some (c :: rest)

/-- What follows blanks. -/
def skipBlanks (text : List Char) : List Char := text.dropWhile isBlank

/-- What follows the end of a line: blanks, a comment, and a line break or the end of the text. -/
def skipLineEnd (text : List Char) : Option (List Char) :=
  let rest := skipBlanks text
  let rest :=
    match rest with
    | '#' :: comment => comment.dropWhile isCommentChar
    | rest => rest
  match rest with
  | [] => some []
  | '\n' :: rest | '\r' :: '\n' :: rest => some rest
  | _ => none

/-- Whether a character may be part of a bare key. -/
def isKeyChar (c : Char) : Bool := c.isAlphanum || c == '_' || c == '-'

/-- One part of a key, and what follows it. -/
def readKeyPart (text : List Char) : Option (String × List Char) :=
  match text with
  | '"' :: rest => (readBasic rest).map fun (cs, rest) => (String.ofList cs, rest)
  | '\'' :: rest => (readLiteral rest).map fun (cs, rest) => (String.ofList cs, rest)
  | _ =>
    let word := text.takeWhile isKeyChar
    if word.isEmpty then none else some (String.ofList word, text.dropWhile isKeyChar)

/-- How many parts a key may have, and how deep values may be nested. -/
def levelLimit : Nat := 79

/-- The parts of a dotted key, at least one and at most `parts`, and what follows them. -/
def readKey : (parts : Nat) → List Char → Option (List String × List Char)
  | 0, _ => none
  | parts + 1, text => do
    let (part, rest) ← readKeyPart (skipBlanks text)
    match skipBlanks rest with
    | '.' :: rest =>
      let (others, rest) ← readKey parts rest
      return (part :: others, rest)
    | rest => return ([part], rest)

/-- The items of an array up to its closing bracket. A comma may follow the last one. -/
def readItems (read : List Char → Option (Toml × List Char)) :
    (fuel : Nat) → List Char → Option (List Toml × List Char)
  | 0, _ => none
  | fuel + 1, text => do
    match ← skipLoose false text with
    | ']' :: rest => return ([], rest)
    | rest =>
      let (item, rest) ← read rest
      match ← skipLoose false rest with
      | ']' :: rest => return ([item], rest)
      | ',' :: rest =>
        let (items, rest) ← readItems read fuel rest
        return (item :: items, rest)
      | _ => none

/-- The members of an inline table up to its closing brace, put into those before them. -/
def readMembers (read : List Char → Option (Toml × List Char)) :
    (fuel : Nat) → Members → List Char → Option (Members × List Char)
  | 0, _, _ => none
  | fuel + 1, members, text => do
    let (path, rest) ← readKey levelLimit text
    match rest with
    | '=' :: rest =>
      let (v, rest) ← read (skipBlanks rest)
      let members ← members.insert path.dropLast (path.getLastD "") v
      match skipBlanks rest with
      | '\x7d' :: rest => return (members, rest)
      | ',' :: rest => readMembers read fuel members rest
      | _ => none
    | _ => none

/-- The value at the front, and what follows it. `levels` bounds the nesting and `limit` the number
of items. -/
def readValue (limit : Nat) : (levels : Nat) → List Char → Option (Toml × List Char)
  | levels, text =>
    match text with
    | '"' :: _ | '\'' :: _ => (readString text).map fun (s, rest) => (.string s, rest)
    | '[' :: rest =>
      match levels with
      | 0 => none
      | levels + 1 =>
        (readItems (readValue limit levels) limit rest).map fun (items, rest) =>
          (.array items, rest)
    | '\x7b' :: rest =>
      match levels with
      | 0 => none
      | levels + 1 =>
        match skipBlanks rest with
        | '\x7d' :: rest => some (.table [], rest)
        | rest =>
          (readMembers (readValue limit levels) limit [] rest).map fun (members, rest) =>
            (.table (finish members), rest)
    | text => readWord text

/-- One statement of a document. -/
inductive Statement where
  | pair (path : List String) (name : String) (v : Toml)
  | header (path : List String) (name : String)
  | itemHeader (path : List String) (name : String)

/-- The key of a header up to its closing brackets. -/
def readHeader (closing : List Char) (text : List Char) : Option (List String × List Char) := do
  let (path, rest) ← readKey levelLimit text
  if closing.isPrefixOf rest then return (path, rest.drop closing.length) else none

/-- The statement at the front, and the lines after it. -/
def readStatement (limit : Nat) (text : List Char) : Option (Statement × List Char) := do
  match text with
  | '[' :: '[' :: rest =>
    let (path, rest) ← readHeader [']', ']'] rest
    return (.itemHeader path.dropLast (path.getLastD ""), ← skipLineEnd rest)
  | '[' :: rest =>
    let (path, rest) ← readHeader [']'] rest
    return (.header path.dropLast (path.getLastD ""), ← skipLineEnd rest)
  | _ =>
    let (path, rest) ← readKey levelLimit text
    match rest with
    | '=' :: rest =>
      let (v, rest) ← readValue limit levelLimit (skipBlanks rest)
      return (.pair path.dropLast (path.getLastD "") v, ← skipLineEnd rest)
    | _ => none

/-- All statements of a document. -/
def readStatements (limit : Nat) : (fuel : Nat) → List Char → Option (List Statement)
  | 0, _ => none
  | fuel + 1, text => do
    match ← skipLoose false text with
    | [] => return []
    | rest =>
      let (statement, rest) ← readStatement limit rest
      return statement :: (← readStatements limit fuel rest)

/-- The tables that statements build, given the ones so far and the path of the open one. -/
def build : (current : List String) → Members → List Statement → Option Members
  | _, members, [] => some members
  | current, members, .pair path name v :: rest => do
    let members ←
      Members.update .implied (fun _ table => table.insert path name v) current .header members
    build current members rest
  | _, members, .header path name :: rest => do
    build (path ++ [name]) (← members.openTable path name) rest
  | _, members, .itemHeader path name :: rest => do
    build (path ++ [name]) (← members.openItem path name) rest

/-- The members of a document, if it is TOML. A mark of the byte order may stand before it. -/
def parse (text : String) : Option (List (String × Toml)) := do
  let chars :=
    match text.toList with
    | '\uFEFF' :: rest => rest
    | chars => chars
  let statements ← readStatements chars.length (chars.length + 1) chars
  return finish (← build [] [] statements)

end QueueBoard.Toml
