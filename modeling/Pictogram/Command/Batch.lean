import Pictogram.Command.Convert
import Pictogram.Command.Plan

/-!
The conversion of all drawings below a directory. A drawing that cannot be converted does not keep
the others from it; a component that cannot be written ends the batch.
-/

namespace Pictogram

/-- What a batch is asked for. -/
structure BatchRequest where
  directory : String
  /-- The directory to write to, or nothing for that of the configuration. -/
  output? : Option String := none
  noIndex : Bool := false
  check : Bool := false
  deriving DecidableEq, Repr

/-- Whether a batch takes a component: without a check, any. -/
def BatchRequest.accepts (request : BatchRequest) (dialect : Dialect) (source : String) : Bool :=
  !request.check || Script.accepts dialect source

/-- The directory that a batch writes to. -/
def BatchRequest.output (request : BatchRequest) (config : Config) : String :=
  request.output?.getD config.directory

/-- Whether a batch writes an index of its components. -/
def BatchRequest.indexes (request : BatchRequest) (config : Config) : Bool :=
  config.index && !request.noIndex

/-- What came of a batch: the components in the order of their jobs, and how many failed. -/
structure BatchReport where
  converted : List String := []
  failed : Nat := 0
  deriving DecidableEq, Repr

/-- The line of an index that exports a component. -/
def exportLine (name : String) : String :=
  "export \x7b " ++ name ++ " \x7d from \"./" ++ name ++ "\";\n"

/-- The module that exports every component of a batch, in the order of their names. -/
def indexModule (names : List String) : String :=
  String.join ((names.mergeSort (· ≤ ·)).map exportLine)

/-- The name of the file that the module of a batch is written to. -/
def Dialect.indexFile (dialect : Dialect) : String :=
  "index." ++ dialect.indexExtension

/-- The name of the file of a component. -/
def Dialect.componentFile (dialect : Dialect) (name : String) : String :=
  name ++ "." ++ dialect.componentExtension

/-- The path of a component below a directory. -/
def Conversion.path (c : Conversion) (directory : String) : String :=
  Path.join directory (c.dialect.componentFile c.name)

namespace Command

variable {m : Type → Type} [Monad m] [Workspace m]

/-- Converts the file of a job, where `accepts` says which components are taken. -/
def runJob (accepts : Dialect → String → Bool) (config : Config) (job : Job) :
    m (Except JobError Conversion) := do
  match ← tryConvert config.optimizer (config.options job.name) (.external job.path) with
  | .error e => return .error (.conversion e)
  | .ok conversion =>
    if accepts conversion.dialect conversion.source then return .ok conversion
    else return .error .badSource

/-- Converts the files of all jobs, in order. -/
def runJobs (accepts : Dialect → String → Bool) (config : Config) :
    List Job → m (List (Job × Except JobError Conversion))
  | [] => return []
  | job :: jobs => do
    let result ← runJob accepts config job
    return (job, result) :: (← runJobs accepts config jobs)

/-- Writes what jobs have given below a directory and adds to a report. -/
def writeResults (output : String) (report : BatchReport) :
    List (Job × Except JobError Conversion) → Command m BatchReport
  | [] => return report
  | (job, .error e) :: results => do
    Workspace.notify (.notConverted job.path e)
    writeResults output { report with failed := report.failed + 1 } results
  | (_, .ok conversion) :: results => do
    let path := conversion.path output
    match ← Workspace.write path conversion.source with
    | .error e => throw (.notWritten path e)
    | .ok () =>
      writeResults output { report with converted := report.converted ++ [conversion.name] } results

/-- Writes the index of a batch, unless it is empty. -/
def writeIndex (config : Config) (output : String) (names : List String) : Command m Unit := do
  if !names.isEmpty then
    let path := Path.join output config.dialect.indexFile
    match ← Workspace.write path (indexModule names) with
    | .error e => throw (.notWritten path e)
    | .ok () => return ()

/-- Makes the directory of a batch, and writes the components and the index to it. -/
def writeBatch (config : Config) (request : BatchRequest)
    (results : List (Job × Except JobError Conversion)) : Command m BatchReport := do
  let output := request.output config
  if let .error e ← Workspace.makeDirectories output then throw (.notCreated output e)
  let report ← writeResults output {} results
  if request.indexes config then writeIndex config output report.converted
  return report

/-- Tells what came of a batch. One that has no components has failed. -/
def closeBatch (output : String) (total : Nat) (report : BatchReport) : Command m BatchReport := do
  Workspace.notify (.converted report.converted.length total (← Workspace.elapsed))
  Workspace.notify (.outputDirectory output)
  if report.converted.isEmpty then throw (.allFailed report.failed)
  return report

/-- Converts the files of the jobs of a batch and writes what comes of them. -/
def convertAll (accepts : Dialect → String → Bool) (config : Config) (request : BatchRequest)
    (jobs : List Job) : Command m BatchReport := do
  if jobs.isEmpty then
    Workspace.notify (.nothingFound request.directory)
    return {}
  Workspace.notify (.converting jobs.length request.directory)
  let results ← runJobs accepts config jobs
  closeBatch (request.output config) jobs.length (← writeBatch config request results)

/-- Converts all drawings below a directory, where `accepts` says which components are taken. -/
def batchWith (accepts : Dialect → String → Bool) (config : Config) (request : BatchRequest) :
    Command m BatchReport := do
  if !(← Workspace.isDirectory request.directory) then throw (.directoryNotFound request.directory)
  convertAll accepts config request
    (Job.plan (Path.drawings (← Workspace.filesBelow request.directory)))

/-- Converts all drawings below a directory. -/
def batch (config : Config) (request : BatchRequest) : Command m BatchReport :=
  batchWith request.accepts config request

end Command

end Pictogram
