import Pictogram.Markup.Event

/-!
Cleanup of markup: what drawing programs keep for themselves, and everything that does not show, is
left out, and the rest is written again in order.
-/

namespace Pictogram.Markup

namespace Cleanup

/-- Namespace prefixes of drawing programs. -/
def editorNamespaces : List String :=
  ["sodipodi", "inkscape", "sketch"]

/-- Namespace prefixes that occur in metadata alone. -/
def metadataNamespaces : List String :=
  ["rdf", "cc", "dc"]

/-- Whether a name carries the prefix of a drawing program. -/
def hasEditorNamespace (name : String) : Bool :=
  editorNamespaces.any fun space => (space ++ ":").toList.isPrefixOf name.toList

/-- Whether an element is left out, with all that is in it. -/
def isDroppedElement (name : String) : Bool :=
  name ∈ ["metadata", "title", "desc"] || hasEditorNamespace name

/-- Whether an attribute declares a namespace that is left out. -/
def declaresDroppedNamespace (name : String) : Bool :=
  (editorNamespaces ++ metadataNamespaces).any fun space => name = "xmlns:" ++ space

/-- Whether an attribute is left out. -/
def isDroppedAttribute (name : String) : Bool :=
  hasEditorNamespace name || declaresDroppedNamespace name

/-- A tag without the attributes that are left out. -/
def cleanTag (tag : Tag) : Except Error Tag :=
  match tag.fault? with
  | some fault => .error (.badAttribute fault)
  | none => .ok { tag with attributes := tag.attributes.filter (!isDroppedAttribute ·.key) }

/-- The events that are kept; `depth` counts the open elements that are left out, from the outermost
of them. A fault in a tag that is left out does not matter. -/
def keep (depth : Nat) : List Event → Except Error (List Event)
  | [] => .ok []
  | event :: events =>
    match event with
    | .opening tag =>
      if 0 < depth || isDroppedElement tag.name then keep (depth + 1) events
      else
        match cleanTag tag with
        | .error e => .error e
        | .ok tag => (keep depth events).map (.opening tag :: ·)
    | .selfClosing tag =>
      if 0 < depth || isDroppedElement tag.name then keep depth events
      else
        match cleanTag tag with
        | .error e => .error e
        | .ok tag => (keep depth events).map (.selfClosing tag :: ·)
    | .closing name =>
      if 0 < depth then keep (depth - 1) events
      else (keep depth events).map (.closing name :: ·)
    | .text raw =>
      if 0 < depth || raw.toList.all Text.isAsciiBlank then keep depth events
      else (keep depth events).map (.text raw :: ·)
    | .cdata raw =>
      if 0 < depth then keep depth events else (keep depth events).map (.cdata raw :: ·)
    | .comment _ | .doctype _ | .instruction _ => keep depth events

end Cleanup

/-- An attribute as it is written, with the space before it. -/
def RawAttribute.chars (a : RawAttribute) : List Char :=
  ' ' :: a.key.toList ++ '=' :: '"' :: a.raw.toList ++ ['"']

/-- The content of a tag as it is written. -/
def Tag.chars (tag : Tag) : List Char :=
  tag.name.toList ++ tag.attributes.flatMap (·.chars)

/-- An event as it is written. -/
def Event.chars : Event → List Char
  | opening tag => '<' :: tag.chars ++ ['>']
  | selfClosing tag => '<' :: tag.chars ++ ['/', '>']
  | closing name => '<' :: '/' :: name.toList ++ ['>']
  | text raw => raw.toList
  | cdata raw => "<![CDATA[".toList ++ raw.toList ++ "]]>".toList
  | comment raw => "<!--".toList ++ raw.toList ++ "-->".toList
  | doctype raw => "<!DOCTYPE".toList ++ raw.toList ++ ['>']
  | instruction raw => '<' :: '?' :: raw.toList ++ ['>']

/-- The events that a cleanup keeps of a reading. An error of a tag comes before one of the reading
behind it. -/
def Reading.cleaned (reading : Reading) : Except Error (List Event) :=
  match Cleanup.keep 0 reading.events, reading.error? with
  | .error e, _ => .error e
  | .ok _, some e => .error e
  | .ok events, none => .ok events

/-- The cleaned text. -/
def cleanup (text : String) : Except Error String :=
  (read text).cleaned.map fun events => .ofList (events.flatMap (·.chars))


end Pictogram.Markup
