/-!
# Markup

A small tree of tags, attributes and character data, and its text. The five characters that mean
something in markup are written as named entities.
-/

namespace QueueBoard.Markup

/-- A character as character data or inside a double-quoted attribute. -/
def escapeChar : Char → List Char
  | '&' => "&amp;".toList
  | '<' => "&lt;".toList
  | '>' => "&gt;".toList
  | '"' => "&quot;".toList
  | '\'' => "&apos;".toList
  | c => [c]

/-- A text with the marks of markup taken away. -/
def escape (text : String) : String := String.ofList (text.toList.flatMap escapeChar)

/-- An attribute of a tag. -/
structure Attribute where
  name : String
  value : String
  /-- Written as it is: for values that hold no marks. -/
  verbatim : Bool := false
  deriving Repr, BEq, DecidableEq

/-- A piece of markup. -/
inductive Node where
  | element (name : String) (attributes : List Attribute) (children : List Node)
  | text (content : String)
  deriving Repr, BEq

/-- An attribute with the blank before it. -/
def Attribute.write (a : Attribute) : String :=
  " " ++ a.name ++ "=\"" ++ (if a.verbatim then a.value else escape a.value) ++ "\""

mutual
/-- The text of a piece of markup. A tag without children closes itself. -/
def Node.write : Node → String
  | .element name attributes [] =>
    "<" ++ name ++ String.join (attributes.map Attribute.write) ++ "/>"
  | .element name attributes (child :: rest) =>
    "<" ++ name ++ String.join (attributes.map Attribute.write) ++ ">" ++
      (child.write ++ Node.writeAll rest) ++ "</" ++ name ++ ">"
  | .text content => escape content

/-- The text of pieces of markup in a row. -/
def Node.writeAll : List Node → String
  | [] => ""
  | node :: rest => node.write ++ Node.writeAll rest
end

end QueueBoard.Markup
