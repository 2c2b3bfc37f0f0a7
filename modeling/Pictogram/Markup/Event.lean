import Pictogram.Markup.RawAttribute
import Pictogram.Markup.Token

/-!
Events of markup: its tokens with tags taken apart, read under the condition that every closing tag
names the innermost element that is open.
-/

namespace Pictogram.Markup

/-- A tag that opens an element: its name, its attributes up to the first fault, and the fault. -/
structure Tag where
  name : String
  attributes : List RawAttribute
  fault? : Option AttributeFault := none
  deriving DecidableEq, Repr, Inhabited

/-- Takes the content of a tag apart. The name ends at the first space. -/
def Tag.ofContent (content : List Char) : Tag :=
  let name := content.takeWhile (!Text.isSpace ·)
  let (attributes, fault?) :=
    readAttributes (Text.byteLength name) [] (content.dropWhile (!Text.isSpace ·))
  { name := .ofList name, attributes, fault? }

/-- A piece of markup as its readers see it. -/
inductive Event where
  | opening (tag : Tag)
  | selfClosing (tag : Tag)
  | closing (name : String)
  | text (raw : String)
  | cdata (raw : String)
  | comment (raw : String)
  | doctype (raw : String)
  | instruction (raw : String)
  deriving DecidableEq, Repr

/-- The name in a closing tag. Space behind it does not belong to it, unless there is nothing
else. -/
def closingName (content : List Char) : List Char :=
  if content.all Text.isSpace then content else Text.dropEnd Text.isSpace content

/-- Reads a closing tag while the given elements are open, innermost first; the answer holds the
elements that stay open. -/
def close (openNames : List String) (content : List Char) :
    Except Error (Event × List String) :=
  match openNames with
  | [] => .error (.wrongClosing "" (.ofList content))
  | name :: openNames =>
    let found := String.ofList (closingName content)
    if found = name then .ok (.closing found, openNames) else .error (.wrongClosing name found)

/-- The event of a token while the given elements are open, and the elements open after it. -/
def Event.ofToken (openNames : List String) : Token → Except Error (Event × List String)
  | .text raw => .ok (.text (.ofList raw), openNames)
  | .opening content =>
    let tag := Tag.ofContent content
    .ok (.opening tag, tag.name :: openNames)
  | .selfClosing content => .ok (.selfClosing (.ofContent content), openNames)
  | .closing content => close openNames content
  | .cdata raw => .ok (.cdata (.ofList raw), openNames)
  | .comment raw => .ok (.comment (.ofList raw), openNames)
  | .doctype raw => .ok (.doctype (.ofList raw), openNames)
  | .instruction raw => .ok (.instruction (.ofList raw), openNames)

/-- What reading a text gives: the events up to the first error, and the error. -/
structure Reading where
  events : List Event
  error? : Option Error
  deriving DecidableEq, Repr

/-- Reads a text while the given elements are open. -/
def readFrom (openNames : List String) (cs : List Char) : Reading :=
  match _h : nextToken cs with
  | .error e => ⟨[], some e⟩
  | .ok none => ⟨[], none⟩
  | .ok (some (token, rest)) =>
    match Event.ofToken openNames token with
    | .error e => ⟨[], some e⟩
    | .ok (event, openNames) =>
      let reading := readFrom openNames rest
      ⟨event :: reading.events, reading.error?⟩
termination_by cs.length
decreasing_by exact length_nextToken _h

/-- The text without the byte order mark that may stand at its start. -/
def dropMark (cs : List Char) : List Char :=
  match cs with
  | [] => []
  | c :: rest => if c = '\uFEFF' then rest else c :: rest

/-- Reads a whole text. -/
def read (text : String) : Reading :=
  readFrom [] (dropMark text.toList)

end Pictogram.Markup
