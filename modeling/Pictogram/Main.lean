import Pictogram.Command.Line

/-!
The program: a workspace of real files, and the command line.
-/

namespace Pictogram

/-- The cause of a failed access to a file. -/
def FileError.ofSystem : IO.Error → FileError
  | .noFileOrDirectory .. => .notFound
  | .alreadyExists .. => .alreadyExists
  | e => .other (toString e)

/-- What kind of thing a path leads to. -/
def kindOf (path : String) : IO IO.FS.FileType := do
  return (← (← IO.FS.realPath path).metadata).type

/-- The files below a directory. -/
partial def listFiles (directory : String) : IO (List String) := do
  let entries ← (← IO.FS.realPath directory).readDir
  let found ← entries.toList.mapM fun entry => do
    let path := Path.join directory entry.fileName
    match ← kindOf path with
    | .dir => listFiles path
    | .file => return [path]
    | _ => return []
  return found.flatten

/-- The outcome of an access to a file. -/
def attempt {α : Type} (action : IO α) : IO (Except FileError α) := do
  try
    return .ok (← action)
  catch e => return .error (.ofSystem e)

/-- Whether a path leads to a directory. -/
def leadsToDirectory (path : String) : IO Bool := do
  try
    return (← kindOf path) == .dir
  catch _ => return false

/-- Whether a path leads anywhere. -/
def leadsAnywhere (path : String) : IO Bool := do
  try
    let _ ← kindOf path
    return true
  catch _ => return false

instance : Workspace (ReaderT Nat IO) where
  read path := do
    if ← leadsToDirectory path then return .error .isDirectory
    return (← attempt (IO.FS.readBinFile path)).bind textOfBytes
  write path text := do
    if ← leadsToDirectory path then return .error .isDirectory
    attempt (IO.FS.writeFile path text)
  makeDirectories path := attempt (if path = "" then pure () else IO.FS.createDirAll path)
  isDirectory path := leadsToDirectory path
  pathExists path := leadsAnywhere path
  filesBelow path := listFiles path
  input := do
    let stdin ← IO.getStdin
    return (← attempt stdin.readBinToEnd).bind textOfBytes
  print text := IO.print text
  notify n := IO.eprintln n.line
  elapsed := do
    return toString ((← IO.monoMsNow) - (← read))

/-- The lines that tell why a command failed. -/
def failureText (chain : List String) : String :=
  match chain with
  | [] => "Error"
  | message :: [] => "Error: " ++ message
  | message :: causes =>
    let line (i : Nat) (cause : String) : String := s!"    {i}: " ++ cause
    "Error: " ++ message ++ "\n\nCaused by:\n" ++ "\n".intercalate (causes.mapIdx line)

end Pictogram

open Pictogram in
/-- Runs a command line. The exit code is 1 if the command fails and 2 if it cannot be followed. -/
def main (args : List String) : IO UInt32 := do
  match Invocation.read args with
  | .error e =>
    IO.eprintln ("error: " ++ e.message)
    return 2
  | .ok invocation =>
    let command : ReaderT Nat IO (Except CommandError Unit) := invocation.run.run
    match ← command.run (← IO.monoMsNow) with
    | .ok () => return 0
    | .error e =>
      IO.eprintln (failureText e.chain)
      return 1
