import Pictogram.Conversion.Basic

/-!
What a command tells while it runs, and why it can fail.
-/

namespace Pictogram

/-- The wording of a failed syntax check. -/
def syntaxFailure : String :=
  "Generated source does not parse"

/-- Why one file of a batch gives no component. -/
inductive JobError where
  | conversion (error : ConversionError)
  | badSource
  deriving DecidableEq, Repr

/-- The wording of an error with all it comes from. -/
def JobError.message : JobError → String
  | conversion e => ": ".intercalate e.chain
  | badSource => syntaxFailure

/-- Something a command tells. -/
inductive Notice where
  | configLoaded (path : String)
  | configExists (path : String)
  | configCreated (path : String)
  /-- What to do after a configuration was created. -/
  | nextStep
  | optimizerFailed (name : String) (error : OptimizerError)
  | notOptimized (label : String)
  | written (component path : String)
  | nothingFound (directory : String)
  | converting (count : Nat) (directory : String)
  | notConverted (path : String) (error : JobError)
  /-- How many of how many files were converted, and how many milliseconds it took. -/
  | converted (count total : Nat) (elapsed : String)
  | outputDirectory (path : String)
  deriving DecidableEq, Repr

namespace Notice

/-- Whether something went another way than asked for. -/
def isWarning : Notice → Bool
  | configExists _ | optimizerFailed _ _ | nothingFound _ | notConverted _ _ => true
  | _ => false

/-- The wording of a notice. -/
def message : Notice → String
  | configLoaded path => "Loaded config from " ++ path
  | configExists path => path ++ " already exists. Use --yes to overwrite."
  | configCreated path => "Created " ++ path
  | nextStep => "Run 'svg2jsx batch <dir>' to convert a folder of icons."
  | optimizerFailed name e =>
    "Optimizer " ++ name ++ " failed, using original markup: " ++ e.message
  | notOptimized label => "Converted " ++ label ++ " without optimization"
  | written component path => "Wrote " ++ component ++ " to " ++ path
  | nothingFound directory => "No .svg files found in " ++ directory
  | converting count directory => s!"Converting {count} files from {directory}"
  | notConverted path e => "Failed to convert " ++ path ++ ": " ++ e.message
  | converted count total elapsed => s!"Converted {count} of {total} files in {elapsed}ms"
  | outputDirectory path => "Output: " ++ path

/-- A notice as a line of the log. -/
def line (n : Notice) : String :=
  (if n.isWarning then "WARN " else "INFO ") ++ n.message

end Notice

/-- Why a command fails. -/
inductive CommandError where
  | configUnreadable (path : String) (error : FileError)
  | configMalformed (path : String)
  | inputUnreadable (error : FileError)
  | conversionFailed (label : String) (error : ConversionError)
  | badSource
  | notWritten (path : String) (error : FileError)
  | notCreated (path : String) (error : FileError)
  | directoryNotFound (path : String)
  | allFailed (count : Nat)
  deriving DecidableEq, Repr

/-- The wordings of an error and of what it comes from, the outermost first. -/
def CommandError.chain : CommandError → List String
  | configUnreadable path e => ["Failed to read " ++ path, e.message]
  | configMalformed path => ["Failed to parse " ++ path]
  | inputUnreadable e => ["Failed to read SVG from stdin", e.message]
  | conversionFailed label e => ("Failed to convert " ++ label) :: e.chain
  | badSource => ["Generated component failed the syntax check", syntaxFailure]
  | notWritten path e => ["Failed to write " ++ path, e.message]
  | notCreated path e => ["Failed to create " ++ path, e.message]
  | directoryNotFound path => ["Directory not found: " ++ path]
  | allFailed count => [s!"All {count} conversions failed"]

end Pictogram
