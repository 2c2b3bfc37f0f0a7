import Pictogram.Component.Dialect
import Pictogram.Component.Name
import Pictogram.Component.PropFlags
import Pictogram.Text.Quoted

/-!
What a caller chooses for one conversion, and what can be wrong with the choice.
-/

namespace Pictogram

/-- The choices for one component. -/
structure Options where
  name : String
  dialect : Dialect := .typed
  props : PropFlags := {}
  deriving DecidableEq, Repr, Inhabited

/-- A choice that cannot be followed. -/
inductive OptionError where
  | invalidName (name : String)
  | unknownDialect (text : String)
  | unknownProp (word : String)
  deriving DecidableEq, Repr

/-- The wording of an error. -/
def OptionError.message : OptionError → String
  | invalidName name =>
    "Invalid component name: " ++ Text.quoted name ++ " is not a valid identifier"
  | unknownDialect text =>
    "Unknown output format: " ++ text ++ " (expected typed or untyped)"
  | unknownProp word =>
    "Unknown prop flag: " ++ word ++ " (expected width, height, className or color)"

/-- Refuses a name that no component can have. -/
def Options.validate (options : Options) : Except OptionError Unit :=
  if ComponentName.isValid options.name then .ok () else .error (.invalidName options.name)

/-- Reads the dialect a user asks for. -/
def Options.readDialect (text : String) : Except OptionError Dialect :=
  (Dialect.ofText text).mapError .unknownDialect

/-- Reads the props a user asks for. -/
def Options.readProps (text : String) : Except OptionError PropFlags :=
  (PropFlags.ofText text).mapError .unknownProp

end Pictogram
