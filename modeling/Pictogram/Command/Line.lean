import Pictogram.Command.Arguments
import Pictogram.Command.Batch

/-!
The command line: what it asks for, and the running of it.
-/

namespace Pictogram

/-- What the whole program takes note of, whichever command it runs. -/
structure GlobalOptions where
  config? : Option String := none
  overrides : Overrides := {}
  verbose : Bool := false
  deriving DecidableEq, Repr

/-- What a command line asks for. -/
inductive Invocation where
  | version
  | init (globals : GlobalOptions) (replace : Bool)
  | convert (globals : GlobalOptions) (request : ConvertRequest)
  | batch (globals : GlobalOptions) (request : BatchRequest)
  deriving DecidableEq, Repr

namespace GlobalOptions

/-- The options that may stand before and behind the name of a command. -/
def specs : List OptionSpec := [
  { name := "config", short? := some 'c', takesValue := true },
  { name := "format", short? := some 'f', takesValue := true },
  { name := "props", short? := some 'p', takesValue := true },
  { name := "no-optimize" },
  { name := "verbose", short? := some 'v' }]

/-- A path, which is not empty. -/
def path? (text : String) : Option String :=
  if text = "" then none else some text

/-- Reads the options from what was given. -/
def ofArguments (given : Arguments) : Except UsageError GlobalOptions := do
  return {
    config? := ← given.value? "config" path?
    overrides := {
      dialect? := ← given.value? "format" fun text => (Options.readDialect text).toOption
      props? := ← given.value? "props" fun text => (Options.readProps text).toOption
      noOptimize := given.has "no-optimize" }
    verbose := given.has "verbose" }

/-- Joins the options before and behind the name of a command; of two values the one behind it
counts. -/
def join (before after : GlobalOptions) : GlobalOptions where
  config? := after.config?.or before.config?
  overrides := {
    dialect? := after.overrides.dialect?.or before.overrides.dialect?
    props? := after.overrides.props?.or before.overrides.props?
    noOptimize := before.overrides.noOptimize || after.overrides.noOptimize }
  verbose := before.verbose || after.verbose

/-- The path of the configuration file. -/
def configPath (g : GlobalOptions) : String :=
  g.config?.getD "svg2jsx.toml"

end GlobalOptions

namespace Invocation

/-- What stands before the name of a command. -/
def frontSpec : CommandSpec where
  options := GlobalOptions.specs ++ [{ name := "version", short? := some 'V', isFinal := true }]
  endsAtWord := true

/-- What stands behind the name of a command with options of its own. -/
def spec (options : List OptionSpec) : CommandSpec where
  options := GlobalOptions.specs ++ options

/-- Reads what asks for a conversion. -/
def readConvert (before : GlobalOptions) (args : List String) : Except UsageError Invocation := do
  let given ← Arguments.read (spec [
    { name := "name", short? := some 'n', takesValue := true },
    { name := "output", short? := some 'o', takesValue := true },
    { name := "check" },
    { name := "json" }]) args
  let globals := before.join (← GlobalOptions.ofArguments given)
  return .convert globals {
    source := ← given.onlyWord "INPUT"
    name? := ← given.value? "name" some
    target? := ← given.value? "output" GlobalOptions.path?
    check := given.has "check"
    json := given.has "json" }

/-- Reads what asks for a batch. -/
def readBatch (before : GlobalOptions) (args : List String) : Except UsageError Invocation := do
  let given ← Arguments.read (spec [
    { name := "output", short? := some 'o', takesValue := true },
    { name := "no-index" },
    { name := "check" }]) args
  let globals := before.join (← GlobalOptions.ofArguments given)
  let directory ← given.onlyWord "DIR"
  if directory = "" then throw (.badValue "DIR" directory)
  return .batch globals {
    directory
    output? := ← given.value? "output" GlobalOptions.path?
    noIndex := given.has "no-index"
    check := given.has "check" }

/-- Reads what asks for a configuration file. -/
def readInit (before : GlobalOptions) (args : List String) : Except UsageError Invocation := do
  let given ← Arguments.read (spec [{ name := "yes", short? := some 'y' }]) args
  let globals := before.join (← GlobalOptions.ofArguments given)
  given.noWords
  return .init globals (given.has "yes")

/-- Reads a command line. -/
def read (args : List String) : Except UsageError Invocation := do
  let given ← Arguments.read frontSpec args
  let globals ← GlobalOptions.ofArguments given
  if given.final?.isSome then return .version
  match given.rest? with
  | none => throw .missingCommand
  | some (name, args) =>
    if name = "convert" then readConvert globals args
    else if name = "batch" then readBatch globals args
    else if name = "init" then readInit globals args
    else throw (.unknownCommand name)

/-- The name and the version of the program. -/
def versionText : String :=
  "svg2jsx 0.1.0\n"

/-- Does what a command line asks for. -/
def run {m : Type → Type} [Monad m] [Workspace m] : Invocation → Command m Unit
  | version => Workspace.print versionText
  | init globals replace => Command.init globals.configPath replace
  | convert globals request => do
    let config ← Command.loadConfig globals.configPath
    Command.convert (config.override globals.overrides) request
  | batch globals request => do
    let config ← Command.loadConfig globals.configPath
    discard (Command.batch (config.override globals.overrides) request)

end Invocation

end Pictogram
