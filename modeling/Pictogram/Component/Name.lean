/-!
Component names: which are valid, and how one is derived from the name of a file.
-/

namespace Pictogram.ComponentName

/-- A character that may begin a component name. -/
def isStart (c : Char) : Bool :=
  c.isAlpha || c == '_' || c == '$'

/-- A character that may follow in a component name. -/
def isPart (c : Char) : Bool :=
  c.isAlphanum || c == '_' || c == '$'

/-- Whether a text is an identifier of ASCII characters. -/
def isValid (name : String) : Bool :=
  match name.toList with
  | [] => false
  | c :: cs => isStart c && cs.all isPart

/-- Keeps the ASCII letters and digits and capitalises each that begins a run of them; the flag
says whether the next character would begin one. -/
def capitalizeRuns (atStart : Bool) : List Char → List Char
  | [] => []
  | c :: cs =>
    if c.isAlphanum then (if atStart then c.toUpper else c) :: capitalizeRuns false cs
    else capitalizeRuns true cs

/-- The component name for a file stem or any other text: its words in capitalised form, with a
fixed name for a text without words and a fixed beginning for one that starts with a digit. -/
def derive (text : String) : String :=
  match capitalizeRuns true text.toList with
  | [] => "SvgComponent"
  | c :: cs => if c.isDigit then .ofList ('S' :: 'v' :: 'g' :: c :: cs) else .ofList (c :: cs)

end Pictogram.ComponentName
