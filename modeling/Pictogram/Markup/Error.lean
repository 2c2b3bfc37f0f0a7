import Pictogram.Text.Quoted

/-!
What can be wrong with markup. Positions are counted in bytes: those of an attribute from behind the
angle bracket that opens its tag, those of a reference from the start of the text it stands in.
-/

namespace Pictogram.Markup

/-- What can be wrong with an attribute list. -/
inductive AttributeFault where
  /-- Neither an equals sign nor a space follows the key, or no equals sign follows the space. -/
  | missingEquals (position : Nat)
  /-- The key occurs a second time. -/
  | duplicate (position previous : Nat)
  /-- The tag ends behind the equals sign. -/
  | missingValue (position : Nat)
  /-- The value does not begin with a quote. -/
  | unquotedValue (position : Nat)
  /-- The value does not end with the quote it began with. -/
  | unclosedValue (position : Nat) (quote : Char)
  deriving DecidableEq, Repr

/-- What can be wrong with a character reference. -/
inductive ReferenceFault where
  /-- No semicolon follows the ampersand, or another ampersand comes first. -/
  | unterminated (start stop : Nat)
  /-- The name is none of the five that markup defines. -/
  | unknown (start stop : Nat) (name : String)
  /-- More hexadecimal digits than any character needs. -/
  | longHexadecimal
  /-- More decimal digits than any character needs. -/
  | longDecimal
  | badHexadecimalDigit (digit : Char)
  | badDecimalDigit (digit : Char)
  /-- The number is zero. -/
  | null (start stop : Nat)
  /-- The number belongs to no character. -/
  | notCharacter (number : Nat)
  deriving DecidableEq, Repr

/-- A construct that the text ends in the middle of. -/
inductive Construct where
  | declaration
  | comment
  | cdata
  | doctype
  | instruction
  | tag
  deriving DecidableEq, Repr

/-- Why markup cannot be read. -/
inductive Error where
  /-- The text ends inside a construct, or the construct does not begin as it has to. -/
  | unfinished (construct : Construct)
  /-- An exclamation mark is followed by something that begins no construct. -/
  | unknownDeclaration (lead : Char)
  | emptyDoctype
  /-- A closing tag names another element than the innermost open one; without an open element the
  expected name is empty. -/
  | wrongClosing (expected found : String)
  | badAttribute (fault : AttributeFault)
  | badReference (fault : ReferenceFault)
  /-- The text ends inside an element. -/
  | unclosed (tag : String)
  deriving DecidableEq, Repr

/-- The wording of an attribute fault. -/
def AttributeFault.message : AttributeFault → String
  | missingEquals p =>
    s!"position {p}: attribute key must be directly followed by \x60=\x60 or space"
  | duplicate p q =>
    s!"position {p}: duplicated attribute, previous declaration at position {q}"
  | missingValue p => s!"position {p}: \x60=\x60 must be followed by an attribute value"
  | unquotedValue p =>
    s!"position {p}: attribute value must be enclosed in \x60\"\x60 or \x60'\x60"
  | unclosedValue p quote =>
    s!"position {p}: missing closing quote \x60{quote}\x60 in attribute value"

/-- The wording of a reference fault. -/
def ReferenceFault.message : ReferenceFault → String
  | unterminated start stop =>
    s!"Error while escaping character at range {start}..{stop}: Cannot find ';' after '&'"
  | unknown start stop name =>
    s!"Error while escaping character at range {start}..{stop}: Unrecognized escape symbol: " ++
      Text.quoted name
  | longHexadecimal => "Cannot convert hexadecimal to utf8"
  | longDecimal => "Cannot convert decimal to utf8"
  | badHexadecimalDigit digit => s!"'{digit}' is not a valid hexadecimal character"
  | badDecimalDigit digit => s!"'{digit}' is not a valid decimal character"
  | null start stop =>
    s!"Error while escaping character at range {start}..{stop}: Null character entity not allowed"
  | notCharacter number => s!"'{number}' is not a valid codepoint"

/-- The name of a construct in messages. -/
def Construct.name : Construct → String
  | declaration => "Bang"
  | comment => "Comment"
  | cdata => "CData"
  | doctype => "DOCTYPE"
  | instruction => "XmlDecl"
  | tag => "Element"

/-- The wording of an error. -/
def Error.message : Error → String
  | unfinished construct => "Unexpected EOF during reading " ++ construct.name
  | unknownDeclaration lead =>
    "Only Comment (\x60--\x60), CDATA (\x60[CDATA[\x60) and DOCTYPE (\x60DOCTYPE\x60) nodes can " ++
      s!"start with a '!', but symbol \x60{lead}\x60 found"
  | emptyDoctype => "DOCTYPE declaration must not be empty"
  | wrongClosing expected found => s!"Expecting </{expected}> found </{found}>"
  | badAttribute fault => fault.message
  | badReference fault => fault.message
  | unclosed tag => s!"unexpected end of input inside <{tag}>"

end Pictogram.Markup
