import Pictogram.Component.Options
import Pictogram.Data.Toml.Reader

/-!
Records of settings read from structured data: the options of one component, and the configuration
of the command line.
-/

namespace Pictogram

/-- Reads a dialect. -/
def Dialect.ofDatum? (format : DataFormat) (d : Datum) : Option Dialect :=
  (d.choice? format).bind Dialect.ofSetting?

/-- Reads a choice of props; a prop that is not mentioned is not chosen. -/
def PropFlags.ofDatum? (format : DataFormat) (d : Datum) : Option PropFlags := do
  let flag := Datum.orDefault Datum.bool? false
  match ← d.fields? format [["width"], ["height"], ["class_name", "className"], ["color"]] with
  | [width, height, className, color] =>
    return ⟨← flag width, ← flag height, ← flag className, ← flag color⟩
  | _ => Option.none

/-- Reads the options of a component; the name has no default. -/
def Options.ofDatum? (format : DataFormat) (d : Datum) : Option Options := do
  match ← d.fields? format [["format"], ["componentName"], ["addProps"]] with
  | [dialect, some name, props] =>
    return {
      name := ← name.text?
      dialect := ← Datum.orDefault (Dialect.ofDatum? format) .typed dialect
      props := ← Datum.orDefault (PropFlags.ofDatum? format) {} props }
  | _ => none

/-- What a configuration file says. -/
structure Config where
  dialect : Dialect := .typed
  directory : String := "icons"
  index : Bool := true
  props : PropFlags := {}
  optimize : Bool := true
  deriving DecidableEq, Repr, Inhabited

namespace Config

/-- Reads the part of a configuration that is about output into it. -/
def readOutput? (config : Config) (d : Datum) : Option Config := do
  match ← d.fields? .toml [["format"], ["dir"], ["index"]] with
  | [dialect, directory, index] =>
    return { config with
      dialect := ← Datum.orDefault (Dialect.ofDatum? .toml) config.dialect dialect
      directory := ← Datum.orDefault Datum.text? config.directory directory
      index := ← Datum.orDefault Datum.bool? config.index index }
  | _ => none

/-- Reads the part of a configuration that is about optimization into it. -/
def readOptimize? (config : Config) (d : Datum) : Option Config := do
  match ← d.fields? .toml [["enabled"]] with
  | [enabled] =>
    return { config with optimize := ← Datum.orDefault Datum.bool? config.optimize enabled }
  | _ => none

/-- Reads a configuration. -/
def ofDatum? (d : Datum) : Option Config := do
  match ← d.fields? .toml [["output"], ["props"], ["optimize"]] with
  | [output, props, optimize] =>
    let config : Config := {}
    let config ← Datum.orDefault config.readOutput? config output
    let props ← Datum.orDefault (PropFlags.ofDatum? .toml) config.props props
    let config ← Datum.orDefault config.readOptimize? config optimize
    return { config with props }
  | _ => none

/-- Reads the text of a configuration file. -/
def ofText? (text : String) : Option Config :=
  (Toml.read? text).bind ofDatum?

/-- The text of a configuration file that spells out the defaults, with all props chosen. -/
def template : String :=
  "# svg2jsx configuration\n\n" ++
  "[output]\n" ++
  "# \"typed\" writes .tsx with a props interface, \"untyped\" writes .jsx\n" ++
  "format = \"typed\"\n\n" ++
  "# Output directory for \x60svg2jsx batch\x60\n" ++
  "dir = \"icons\"\n\n" ++
  "# Write an index module re-exporting every component\n" ++
  "index = true\n\n" ++
  "[props]\n" ++
  "# Props the generated components accept\n" ++
  "width = true\n" ++
  "height = true\n" ++
  "className = true\n" ++
  "color = true\n\n" ++
  "[optimize]\n" ++
  "# Strip comments, metadata and editor data before converting\n" ++
  "enabled = true\n"

end Config

/-- What a command line says in place of the configuration. -/
structure Overrides where
  dialect? : Option Dialect := none
  props? : Option PropFlags := none
  noOptimize : Bool := false
  deriving DecidableEq, Repr, Inhabited

/-- The configuration with what the command line says put in its place. -/
def Config.override (config : Config) (o : Overrides) : Config :=
  { config with
    dialect := o.dialect?.getD config.dialect
    props := o.props?.getD config.props
    optimize := config.optimize && !o.noOptimize }

/-- The options for one component. -/
def Config.options (config : Config) (name : String) : Options :=
  { name, dialect := config.dialect, props := config.props }

end Pictogram
