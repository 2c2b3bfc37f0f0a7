import Pictogram.Text.Blank

/-!
The element tree of a drawing: tags, attributes in document order, child elements in document order
and the text that stands directly in an element.
-/

namespace Pictogram

/-- A name with its decoded value. -/
structure Attribute where
  name : String
  value : String
  deriving DecidableEq, Repr, Inhabited

/-- An element with everything below it. -/
structure Element where
  tag : String
  attributes : List Attribute := []
  children : List Element := []
  text : Option String := none
  deriving Repr, Inhabited

namespace Element

/-- An element with nothing in it. -/
def ofTag (tag : String) : Element :=
  { tag }

/-- Adds an attribute after those already there. -/
def addAttribute (e : Element) (name value : String) : Element :=
  { e with attributes := e.attributes ++ [⟨name, value⟩] }

/-- Adds a child after those already there. -/
def addChild (e child : Element) : Element :=
  { e with children := e.children ++ [child] }

/-- Replaces the text. -/
def setText (e : Element) (text : String) : Element :=
  { e with text := some text }

/-- Adds to the end of the text. -/
def appendText (e : Element) (text : String) : Element :=
  { e with text := some (e.text.getD "" ++ text) }

/-- The value of the first attribute with the given name. -/
def attribute? (e : Element) (name : String) : Option String :=
  (e.attributes.find? (·.name = name)).map (·.value)

/-- The text without surrounding blanks, if any of it is left. -/
def meaningfulText (e : Element) : Option String :=
  match e.text with
  | none => none
  | some text =>
    match Text.trim text.toList with
    | [] => none
    | c :: cs => some (.ofList (c :: cs))

end Element

mutual

/-- The element and everything below it, parents before children, in document order. -/
def Element.preorder : Element → List Element
  | ⟨tag, attributes, children, text⟩ => ⟨tag, attributes, children, text⟩ :: preorderAll children

/-- The listings of several trees one after the other. -/
def Element.preorderAll : List Element → List Element
  | [] => []
  | e :: es => e.preorder ++ preorderAll es

end

end Pictogram
