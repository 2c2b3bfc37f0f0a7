import Pictogram.Component.Source
import Pictogram.Conversion.Optimizer
import Pictogram.Conversion.Source
import Pictogram.Data.JsonText
import Pictogram.Markup.Forest

/-!
Conversions: from markup to the source of a component.
-/

namespace Pictogram

/-- A converted drawing. -/
structure Conversion where
  name : String
  dialect : Dialect
  /-- Whether the optimizer did its part. -/
  optimized : Bool
  source : String
  deriving DecidableEq, Repr

/-- Why a drawing cannot be converted. -/
inductive ConversionError where
  | badOptions (error : OptionError)
  | noMarkup (uri : String) (error : SourceError)
  | noDrawing (error : DrawingError)
  deriving DecidableEq, Repr

namespace ConversionError

/-- The wording of an error. -/
def message : ConversionError → String
  | badOptions e => "Invalid conversion options: " ++ e.message
  | noMarkup uri e => "Failed to fetch " ++ uri ++ ": " ++ e.message
  | noDrawing e => e.message

/-- The wordings of an error and of what it comes from. -/
def chain : ConversionError → List String
  | badOptions e => [(badOptions e).message, e.message]
  | e => [e.message]

end ConversionError

namespace Conversion

/-- Converts markup that is at hand. -/
def ofMarkup (optimizer : Optimizer) (options : Options) (markup : String) :
    Except DrawingError Conversion :=
  let (text, failure?) := optimizer.apply markup
  (Element.parse text).map fun root => {
    name := options.name
    dialect := options.dialect
    optimized := failure?.isNone
    source := Component.source root options }

/-- Converts the markup of a source that was tried; options that cannot be followed come before a
source that gave nothing. -/
def ofSource (optimizer : Optimizer) (options : Options) (uri : String)
    (markup : Except SourceError String) : Except ConversionError Conversion := do
  options.validate.mapError .badOptions
  let text ← markup.mapError (.noMarkup uri)
  (ofMarkup optimizer options text).mapError .noDrawing

/-- The report of a conversion as a JSON object. -/
def json (c : Conversion) : String :=
  JsonText.object [
    ("componentName", JsonText.string c.name),
    ("format", JsonText.string c.dialect.name),
    ("optimized", JsonText.bool c.optimized),
    ("source", JsonText.string c.source)] ++ "\n"

end Conversion

end Pictogram
