import Pictogram.Text.Identifier.Table

/-!
The characters of which identifiers of a script are made.
-/

namespace Pictogram.Text

/-- A character that may begin an identifier. -/
def isIdentifierStart (c : Char) : Bool :=
  c.isAlpha || c == '_' || c == '$' || identifierStart.contains c

/-- A character that may follow in an identifier. -/
def isIdentifierPart (c : Char) : Bool :=
  c.isAlphanum || c == '_' || c == '$' || identifierPart.contains c

end Pictogram.Text
