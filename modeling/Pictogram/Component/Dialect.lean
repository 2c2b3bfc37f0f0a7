import Pictogram.Text.Blank
import Pictogram.Text.Lowercase

/-!
The two dialects in which components are written.
-/

namespace Pictogram

/-- Typed components declare an interface for their props; untyped ones do not. -/
inductive Dialect where
  | typed
  | untyped
  deriving DecidableEq, Repr, Inhabited

namespace Dialect

/-- The name of the dialect in settings and reports. -/
def name : Dialect → String
  | typed => "typed"
  | untyped => "untyped"

/-- The file extension of a component. -/
def componentExtension : Dialect → String
  | typed => "tsx"
  | untyped => "jsx"

/-- The file extension of a module that holds no markup. -/
def indexExtension : Dialect → String
  | typed => "ts"
  | untyped => "js"

/-- Whether props get an interface. -/
def isTyped : Dialect → Bool
  | typed => true
  | untyped => false

/-- Reads a dialect as a user may write it: surrounding blanks and letter case do not matter, and
the name of the language or one of its file extensions will do. On failure the answer is the text
that was looked up. -/
def ofText (text : String) : Except String Dialect :=
  let key := Text.lowercase (.ofList (Text.trim text.toList))
  if key ∈ ["typed", "tsx", "ts", "typescript"] then .ok typed
  else if key ∈ ["untyped", "jsx", "js", "javascript"] then .ok untyped
  else .error key

/-- Reads a dialect as settings spell it, to the letter. -/
def ofSetting? (text : String) : Option Dialect :=
  if text ∈ ["typed", "tsx"] then some typed
  else if text ∈ ["untyped", "jsx"] then some untyped
  else none

end Dialect

end Pictogram
