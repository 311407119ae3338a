import QueueBoard.Toml
/-!
# Building TOML tables

A document names tables in headers and in dotted keys, in any order. Every table may be defined only
once: while a document is read, a table remembers how it came to be.
-/

namespace QueueBoard.Toml

/-- How a table came to be. -/
inductive Origin where
  /-- By a header of its own. -/
  | header
  /-- As a part of the name in another header. -/
  | implied
  /-- As a part of a dotted key. -/
  | dotted
  deriving Repr, BEq, DecidableEq

/-- A member of a table that is still being built. -/
inductive Entry where
  | value (v : Toml)
  | table (origin : Origin) (members : List (String × Entry))
  /-- Tables with the same header in double brackets, the last one first. -/
  | tables (last : List (String × Entry)) (earlier : List (List (String × Entry)))

/-- The members of a table that is still being built. -/
abbrev Members := List (String × Entry)

namespace Members

/-- Puts an entry in the place of the one of its name, or at the end. -/
def put (members : Members) (name : String) (entry : Entry) : Members :=
  match members with
  | [] => [(name, entry)]
  | (n, e) :: rest => if n == name then (name, entry) :: rest else (n, e) :: put rest name entry

/-- Changes the table that a path leads to, creating the tables in between as `made` says. A dotted
key may not lead into a table that has a header. -/
def update (made : Origin) (change : Origin → Members → Option Members) :
    (path : List String) → Origin → Members → Option Members
  | [], origin, members => change origin members
  | name :: path, _, members => do
    match members.lookup name with
    | none => return members.put name (.table made (← update made change path made []))
    | some (.value _) => none
    | some (.tables last earlier) =>
      return members.put name (.tables (← update made change path .header last) earlier)
    | some (.table origin inner) =>
      if made == .dotted && origin == .header then none
      else return members.put name (.table origin (← update made change path origin inner))

/-- Gives a table another member under a dotted key. -/
def insert (path : List String) (name : String) (v : Toml) (members : Members) : Option Members :=
  update .dotted (fun origin members =>
    if (!path.isEmpty && origin != .dotted) || (members.lookup name).isSome then none
    else some (members.put name (.value v))) path .header members

/-- Opens the table of a header. -/
def openTable (path : List String) (name : String) (members : Members) : Option Members :=
  update .implied (fun _ members =>
    match members.lookup name with
    | none => some (members.put name (.table .header []))
    | some (.table .implied inner) => some (members.put name (.table .header inner))
    | some _ => none) path .header members

/-- Opens one more table of a header in double brackets. -/
def openItem (path : List String) (name : String) (members : Members) : Option Members :=
  update .implied (fun _ members =>
    match members.lookup name with
    | none => some (members.put name (.tables [] []))
    | some (.tables last earlier) => some (members.put name (.tables [] (last :: earlier)))
    | some _ => none) path .header members

end Members

mutual
/-- The finished value of an entry. -/
def Entry.toToml : Entry → Toml
  | .value v => v
  | .table _ members => .table (finish members)
  | .tables last earlier => .array ((finishAll earlier).reverse ++ [.table (finish last)])

/-- The finished members of a table. -/
def finish : List (String × Entry) → List (String × Toml)
  | [] => []
  | (name, entry) :: rest => (name, entry.toToml) :: finish rest

/-- Finished tables. -/
def finishAll : List (List (String × Entry)) → List Toml
  | [] => []
  | members :: rest => .table (finish members) :: finishAll rest
end

end QueueBoard.Toml
