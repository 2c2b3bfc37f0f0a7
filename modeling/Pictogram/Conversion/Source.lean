import Pictogram.Files.Error
import Pictogram.Text.Literal

/-!
Where markup comes from: a text at hand, or a file that a path or a URI names.
-/

namespace Pictogram

/-- Where markup comes from. -/
inductive MarkupSource where
  /-- The text itself. -/
  | inline (text : String)
  /-- A path, or a URI of a file. -/
  | external (uri : String)
  deriving DecidableEq, Repr

/-- Why the markup of an external source cannot be had. -/
inductive SourceError where
  | unsupportedScheme
  | unreadable (error : FileError)
  deriving DecidableEq, Repr

/-- The wording of an error. -/
def SourceError.message : SourceError → String
  | unsupportedScheme => "unsupported URI scheme"
  | unreadable e => e.message

namespace MarkupSource

/-- The name of a source in messages. -/
def label : MarkupSource → String
  | inline _ => "<inline>"
  | external uri => uri

/-- A character of a URI scheme. -/
def isSchemeChar (c : Char) : Bool :=
  c.isAlphanum || c == '+' || c == '-' || c == '.'

/-- Whether a text starts with a URI scheme: at least two characters, the first of them a letter,
before its first colon. A single letter is the name of a drive. -/
def hasScheme (uri : String) : Bool :=
  match uri.toList.takeWhile (· != ':'), uri.toList.dropWhile (· != ':') with
  | c :: d :: cs, ':' :: _ => c.isAlpha && (d :: cs).all isSchemeChar
  | _, _ => false

/-- The beginning of the URI of a file. -/
def fileScheme : String := "file://"

/-- What stands behind the beginning of a file's URI, or the whole of any other text. -/
def withoutFileScheme (uri : String) : String :=
  match Text.dropLiteral? fileScheme.toList uri.toList with
  | some path => .ofList path
  | none => uri

/-- The path of the file that a text names. A text with any other scheme names none. -/
def localPath? (uri : String) : Option String :=
  match Text.dropLiteral? fileScheme.toList uri.toList with
  | some path => some (.ofList path)
  | none => if hasScheme uri then none else some uri

end MarkupSource

end Pictogram
