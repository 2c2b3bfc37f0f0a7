import Pictogram.Markup.Element
import Pictogram.Markup.Event
import Pictogram.Markup.Reference

/-!
From events to element trees: elements are built on a stack and handed to their parents when they
close. The drawing of a text is its first element named `svg`, parents before children.
-/

namespace Pictogram.Markup

/-- Decodes attributes in order; a fault of the list comes after the attributes before it. -/
def decodeAttributes (fault? : Option AttributeFault) :
    List RawAttribute → Except Error (List Attribute)
  | [] =>
    match fault? with
    | some fault => .error (.badAttribute fault)
    | none => .ok []
  | a :: rest =>
    match decode a.raw with
    | .error fault => .error (.badReference fault)
    | .ok value => (decodeAttributes fault? rest).map (⟨a.key, value⟩ :: ·)

/-- The element that a tag begins, with nothing in it yet. -/
def Tag.element (tag : Tag) : Except Error Element :=
  (decodeAttributes tag.fault? tag.attributes).map fun attributes => { tag := tag.name, attributes }

/-- Elements under construction: the open ones, innermost first, and those at the top level that
are complete. -/
structure Growth where
  enclosing : List Element := []
  complete : List Element := []

namespace Growth

/-- Hands a complete element to the innermost open one, or to the top level. -/
def attach (g : Growth) (e : Element) : Growth :=
  match g.enclosing with
  | [] => { g with complete := g.complete ++ [e] }
  | parent :: outer => { g with enclosing := parent.addChild e :: outer }

/-- Adds text to the innermost open element; at the top level it is dropped. -/
def addText (g : Growth) (text : String) : Growth :=
  match g.enclosing with
  | [] => g
  | parent :: outer => { g with enclosing := parent.appendText text :: outer }

/-- Takes in one event. -/
def step (g : Growth) : Event → Except Error Growth
  | .opening tag => tag.element.map fun e => { g with enclosing := e :: g.enclosing }
  | .selfClosing tag => tag.element.map g.attach
  | .closing _ =>
    match g.enclosing with
    | [] => .ok g
    | e :: outer => .ok ({ g with enclosing := outer }.attach e)
  | .text raw =>
    if g.enclosing.isEmpty then .ok g
    else
      match decode raw with
      | .error fault => .error (.badReference fault)
      | .ok text => .ok (g.addText text)
  | .cdata raw => .ok (g.addText raw)
  | .comment _ | .doctype _ | .instruction _ => .ok g

/-- Takes in events in order. -/
def run (g : Growth) : List Event → Except Error Growth
  | [] => .ok g
  | event :: events =>
    match g.step event with
    | .error e => .error e
    | .ok next => next.run events

end Growth

/-- The top-level elements of a reading. An error of a tag or a text comes before one of the reading
behind it, and an element that stays open is an error too. -/
def Reading.forest (reading : Reading) : Except Error (List Element) :=
  match Growth.run {} reading.events with
  | .error e => .error e
  | .ok g =>
    match reading.error?, g.enclosing with
    | some e, _ => .error e
    | none, e :: _ => .error (.unclosed e.tag)
    | none, [] => .ok g.complete

/-- Whether an element is named `svg`, in any case of ASCII letters. -/
def isDrawing (e : Element) : Bool :=
  Text.equalsIgnoringCase e.tag "svg"

/-- The first drawing of several trees, parents before children. -/
def drawing? (forest : List Element) : Option Element :=
  (Element.preorderAll forest).find? isDrawing

end Pictogram.Markup

namespace Pictogram

/-- Why a text holds no drawing. -/
inductive DrawingError where
  | malformed (error : Markup.Error)
  | noRoot
  deriving DecidableEq, Repr

/-- The wording of an error. -/
def DrawingError.message : DrawingError → String
  | malformed e => "XML parse error: " ++ e.message
  | noRoot => "No <svg> root element found"

/-- The drawing that a text holds. -/
def Element.parse (text : String) : Except DrawingError Element :=
  match (Markup.read text).forest with
  | .error e => .error (.malformed e)
  | .ok forest =>
    match Markup.drawing? forest with
    | some e => .ok e
    | none => .error .noRoot

end Pictogram
