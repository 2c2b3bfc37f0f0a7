import Pictogram.Command.Workspace
import Pictogram.Settings.Config

/-!
The configuration that commands work with, and the writing of a file to start from.
-/

namespace Pictogram

/-- The optimizer that a configuration asks for. -/
def Config.optimizer (config : Config) : Optimizer :=
  if config.optimize then .cleanup else .noop

namespace Command

variable {m : Type → Type} [Monad m] [Workspace m]

/-- The configuration in a file. A path that leads nowhere stands for the defaults. -/
def loadConfig (path : String) : Command m Config := do
  if !(← Workspace.pathExists path) then return {}
  match ← Workspace.read path with
  | .error e => throw (.configUnreadable path e)
  | .ok text =>
    match Config.ofText? text with
    | none => throw (.configMalformed path)
    | some config =>
      Workspace.notify (.configLoaded path)
      return config

/-- Writes a configuration file. One that is there is kept unless it may be replaced. -/
def init (path : String) (replace : Bool) : Command m Unit := do
  if (← Workspace.pathExists path) && !replace then
    Workspace.notify (.configExists path)
  else
    match ← Workspace.write path Config.template with
    | .error e => throw (.notWritten path e)
    | .ok () =>
      Workspace.notify (.configCreated path)
      Workspace.notify .nextStep

end Command

end Pictogram
