import Pictogram.Text.Blank

/-!
The choice of props that a component offers.
-/

namespace Pictogram

/-- Which of the four props a component offers. -/
structure PropFlags where
  width : Bool := false
  height : Bool := false
  className : Bool := false
  color : Bool := false
  deriving DecidableEq, Repr, Inhabited

namespace PropFlags

/-- Every prop. -/
def all : PropFlags :=
  ⟨true, true, true, true⟩

/-- No prop. -/
def none : PropFlags :=
  {}

/-- Whether any prop is chosen. -/
def any (flags : PropFlags) : Bool :=
  flags.width || flags.height || flags.className || flags.color

/-- The choice after one more word of a list: `all` and `none` replace what was chosen before, a
prop's name adds to it, and any other word is refused. -/
def choose (flags : PropFlags) (word : String) : Option PropFlags :=
  if word = "all" then some all
  else if word = "none" then some none
  else if word = "width" then some { flags with width := true }
  else if word = "height" then some { flags with height := true }
  else if word ∈ ["className", "class_name", "class"] then some { flags with className := true }
  else if word = "color" then some { flags with color := true }
  else Option.none

/-- Reads words in order; the first unknown one is the answer of a failure. -/
def ofWords (flags : PropFlags) : List String → Except String PropFlags
  | [] => .ok flags
  | word :: words =>
    match flags.choose word with
    | some next => ofWords next words
    | Option.none => .error word

/-- Reads a list of words separated by commas; blanks around words and empty words do not
matter. -/
def ofText (text : String) : Except String PropFlags :=
  let pieces := (Text.splitWhere (· == ',') text.toList).map Text.trim
  ofWords none ((pieces.filter (!·.isEmpty)).map .ofList)

end PropFlags

end Pictogram
