import Pictogram.Component.AttributeName
import Pictogram.Markup.Element
import Pictogram.Text.Lines
import Pictogram.Text.Lowercase

/-!
The body of a component: the element tree printed as nested, indented tags.

An element without children takes one row, an element with children one row for each of its two
tags; a row at depth `d` is indented by `d + 1` units of two spaces. What is printed of an
attribute list is one attribute for every name the component spells it by.
-/

namespace Pictogram

/-- How an attribute is given its value in a component. -/
inductive PrintedValue where
  /-- The name alone, which stands for a value that says no more than the name. -/
  | bare
  /-- A quoted text. -/
  | quoted (value : String)
  deriving DecidableEq, Repr, Inhabited

/-- An attribute as a component shows it. -/
structure PrintedAttribute where
  name : String
  value : PrintedValue
  deriving DecidableEq, Repr, Inhabited

namespace PrintedAttribute

/-- One character of a quoted attribute value. -/
def escapeChar (c : Char) : List Char :=
  if c = '&' then "&amp;".toList
  else if c = '"' then "&quot;".toList
  else [c]

/-- The printed form of an attribute of the drawing. An empty value and one equal to the name in
the drawing say no more than the name. -/
def ofAttribute (a : Attribute) : PrintedAttribute where
  name := AttributeName.translate a.name
  value := if a.value = "" || a.value = a.name then .bare else .quoted a.value

/-- Puts an attribute into a list: in the place of the one of its name, or else at the end. -/
def put (list : List PrintedAttribute) (a : PrintedAttribute) : List PrintedAttribute :=
  match list with
  | [] => [a]
  | b :: rest => if b.name = a.name then a :: rest else b :: put rest a

/-- What is printed of an attribute list: nothing of namespace declarations, and of attributes
that the component spells alike the last, in the place of the first. -/
def ofAttributes (attributes : List Attribute) : List PrintedAttribute :=
  ((attributes.filter (!AttributeName.isNamespaceDeclaration ·.name)).map ofAttribute).foldl put []

/-- The text of an attribute inside a tag, with the space before it. -/
def chars (a : PrintedAttribute) : List Char :=
  match a.value with
  | .bare => ' ' :: a.name.toList
  | .quoted value => ' ' :: a.name.toList ++ '=' :: '"' :: value.toList.flatMap escapeChar ++ ['"']

end PrintedAttribute

/-- One character of printed text: what would be read as markup or as an expression is escaped. -/
def escapeTextChar (c : Char) : List Char :=
  if c = '&' then "&amp;".toList
  else if c = '<' then "&lt;".toList
  else if c = '>' then "&gt;".toList
  else if c = '\x7b' then "&#123;".toList
  else if c = '\x7d' then "&#125;".toList
  else [c]

/-- One row of a body. -/
inductive Row where
  /-- The tag that opens an element with children. -/
  | opening (tag : String) (attributes : List PrintedAttribute)
  /-- The tag that closes an element with children. -/
  | closing (tag : String)
  /-- An element with neither children nor text. -/
  | leaf (tag : String) (attributes : List PrintedAttribute)
  /-- An element with text alone. -/
  | textLeaf (tag : String) (attributes : List PrintedAttribute) (text : String)
  deriving DecidableEq, Repr

/-- The text of a row, without its indentation. -/
def Row.chars : Row → List Char
  | opening tag attributes => '<' :: tag.toList ++ attributes.flatMap (·.chars) ++ ['>']
  | closing tag => '<' :: '/' :: tag.toList ++ ['>']
  | leaf tag attributes => '<' :: tag.toList ++ attributes.flatMap (·.chars) ++ [' ', '/', '>']
  | textLeaf tag attributes text =>
    '<' :: tag.toList ++ attributes.flatMap (·.chars) ++
      '>' :: text.toList.flatMap escapeTextChar ++ '<' :: '/' :: tag.toList ++ ['>']

/-- The row of an element that has no children. -/
def Row.ofLeaf (tag : String) (attributes : List PrintedAttribute) : Option String → Row
  | some text => textLeaf tag attributes text
  | none => leaf tag attributes

mutual

/-- The rows of an element at the given depth, each with its own depth. -/
def Element.rows (depth : Nat) : Element → List (Nat × Row)
  | ⟨tag, attributes, [], text⟩ =>
    [(depth, .ofLeaf (Text.lowercase tag) (PrintedAttribute.ofAttributes attributes)
      (Element.meaningfulText ⟨tag, attributes, [], text⟩))]
  | ⟨tag, attributes, child :: children, _⟩ =>
    (depth, .opening (Text.lowercase tag) (PrintedAttribute.ofAttributes attributes)) ::
      rowsAll (depth + 1) (child :: children) ++ [(depth, .closing (Text.lowercase tag))]

/-- The rows of several elements at the same depth. -/
def Element.rowsAll (depth : Nat) : List Element → List (Nat × Row)
  | [] => []
  | e :: es => e.rows depth ++ rowsAll depth es

end

/-- The spaces before a row at the given depth. -/
def indentation (depth : Nat) : List Char :=
  List.replicate (2 * (depth + 1)) ' '

/-- The line of a row. -/
def Row.line (row : Nat × Row) : List Char :=
  indentation row.1 ++ row.2.chars

/-- The printed text of an element at the given depth. -/
def Element.renderChars (depth : Nat) (e : Element) : List Char :=
  Text.joinLines ((e.rows depth).map Row.line)

/-- The printed text of an element at the given depth; a drawing is printed at depth one. -/
def Element.render (depth : Nat) (e : Element) : String :=
  .ofList (e.renderChars depth)

end Pictogram
