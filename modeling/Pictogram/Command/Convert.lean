import Pictogram.Command.Settings
import Pictogram.Script.Module

/-!
The conversion of a single drawing.
-/

namespace Pictogram

/-- What a single conversion is asked for. -/
structure ConvertRequest where
  /-- A path, a URI of a file, or a hyphen for the input. -/
  source : String
  name? : Option String := none
  /-- The file to write to, or nothing for the output. -/
  target? : Option String := none
  check : Bool := false
  json : Bool := false
  deriving DecidableEq, Repr

/-- The component name for a source without a name of its own. -/
def ComponentName.ofSource (source : String) : String :=
  if source = "-" then derive ""
  else derive ((Path.fileStem? (MarkupSource.withoutFileScheme source)).getD "")

/-- What a conversion is written as. -/
def Conversion.text (c : Conversion) (json : Bool) : String :=
  if json then c.json else c.source

namespace Command

variable {m : Type → Type} [Monad m] [Workspace m]

/-- The markup of a source. -/
def markup : MarkupSource → m (Except SourceError String)
  | .inline text => return .ok text
  | .external uri =>
    match MarkupSource.localPath? uri with
    | none => return .error .unsupportedScheme
    | some path => return (← Workspace.read path).mapError .unreadable

/-- Converts the markup of a source, and tells if the optimizer fails on it. -/
def tryConvert (optimizer : Optimizer) (options : Options) (source : MarkupSource) :
    m (Except ConversionError Conversion) := do
  let text ← markup source
  if let (.ok (), .ok text) := (options.validate, text) then
    if let some e := (optimizer.apply text).2 then
      Workspace.notify (.optimizerFailed optimizer.name e)
  return Conversion.ofSource optimizer options source.label text

/-- The source that a request names. -/
def requestedSource (source : String) : Command m MarkupSource := do
  if source = "-" then
    match ← Workspace.input with
    | .error e => throw (.inputUnreadable e)
    | .ok text => return .inline text
  else return .external source

/-- Converts one drawing. -/
def convert (config : Config) (request : ConvertRequest) : Command m Unit := do
  let source ← requestedSource request.source
  let name := request.name?.getD (ComponentName.ofSource request.source)
  match ← tryConvert config.optimizer (config.options name) source with
  | .error e => throw (.conversionFailed source.label e)
  | .ok conversion =>
    if !conversion.optimized then Workspace.notify (.notOptimized source.label)
    if request.check && !Script.accepts conversion.dialect conversion.source then throw .badSource
    let text := conversion.text request.json
    match request.target? with
    | none => Workspace.print text
    | some path =>
      match ← Workspace.write path text with
      | .error e => throw (.notWritten path e)
      | .ok () => Workspace.notify (.written conversion.name path)

end Command

end Pictogram
