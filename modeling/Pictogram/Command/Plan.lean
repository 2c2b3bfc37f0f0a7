import Pictogram.Component.Name
import Pictogram.Files.Path

/-!
The plan of a batch: the drawings among the files of a directory in the order of their paths, each
with a component name that no earlier one has.
-/

namespace Pictogram

/-- A file to convert, with the name of its component. -/
structure Job where
  path : String
  name : String
  deriving DecidableEq, Repr

namespace Job

/-- The name that a file's own name suggests. -/
def baseName (path : String) : String :=
  ComponentName.derive ((Path.fileStem? path).getD "")

/-- A name with a number behind it. -/
def numbered (base : String) (k : Nat) : String :=
  base ++ toString k

/-- The first name with a number from `k` on that is not taken; `tries` bounds the search. -/
def freeNumbered (taken : List String) (base : String) (k : Nat) : Nat → String
  | 0 => numbered base k
  | tries + 1 =>
    if numbered base k ∈ taken then freeNumbered taken base (k + 1) tries else numbered base k

/-- The name itself if it is not taken, or else the name with the least number from two on that
makes it free. There are no more names to pass over than are taken. -/
def freeName (taken : List String) (base : String) : String :=
  if base ∈ taken then freeNumbered taken base 2 taken.length else base

/-- Gives each path a job, in order, with the names that are taken before. -/
def planAfter (taken : List String) : List String → List Job
  | [] => []
  | path :: paths =>
    let name := freeName taken (baseName path)
    ⟨path, name⟩ :: planAfter (taken ++ [name]) paths

/-- Gives each path a job, in order. -/
def plan (paths : List String) : List Job :=
  planAfter [] paths

end Job

/-- The drawings among the files of a directory, in the order of their paths. -/
def Path.drawings (paths : List String) : List String :=
  (paths.filter isDrawing).mergeSort le

end Pictogram
