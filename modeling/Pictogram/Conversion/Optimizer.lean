import Pictogram.Markup.Cleanup

/-!
Optimizers: what markup goes through before its elements are read. An optimizer may fail, and then
the markup is taken as it was.
-/

namespace Pictogram

/-- Why an optimizer fails. -/
inductive OptimizerError where
  | unreadable (error : Markup.Error)
  | unwritable (reason : String)
  deriving DecidableEq, Repr

/-- The wording of an error. -/
def OptimizerError.message : OptimizerError → String
  | unreadable e => "Optimizer could not read markup: " ++ e.message
  | unwritable reason => "Optimizer could not write markup: " ++ reason

/-- A step from markup to markup. -/
structure Optimizer where
  name : String
  run : String → Except OptimizerError String

namespace Optimizer

/-- Leaves out everything that does not show. -/
def cleanup : Optimizer where
  name := "cleanup"
  run text := (Markup.cleanup text).mapError .unreadable

/-- Changes nothing. -/
def noop : Optimizer where
  name := "noop"
  run := .ok

/-- The markup to go on with, and the failure if it is the one given. -/
def apply (o : Optimizer) (markup : String) : String × Option OptimizerError :=
  match o.run markup with
  | .ok text => (text, none)
  | .error e => (markup, some e)

end Optimizer

end Pictogram
