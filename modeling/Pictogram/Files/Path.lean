import Pictogram.Text.Blank
import Pictogram.Text.Literal

/-!
Paths as texts: their segments, the name at their end with its stem and extension, and the order in
which files are listed.
-/

namespace Pictogram.Path

/-- The pieces of a path between its slashes, empty ones included. -/
def segments (path : String) : List String :=
  (Text.splitWhere (· == '/') path.toList).map .ofList

/-- Whether a path starts at the root of the file system. -/
def isAbsolute (path : String) : Bool :=
  path.toList.head? = some '/'

/-- Whether a segment leads nowhere else. -/
def isIdle (segment : String) : Bool :=
  segment = "" || segment = "."

/-- The path of an entry of a directory. -/
def join (directory name : String) : String :=
  if directory = "" || directory.toList.getLast? = some '/' then directory ++ name
  else directory ++ "/" ++ name

/-- The path that names one segment after the other. -/
def ofSegments (segments : List String) : String :=
  "/".intercalate segments

/-- The paths of the directories above the entry that the given segments lead to, the last segment
first in the list and the nearest directory first in the answer. -/
def directoriesAbove : List String → List String
  | [] => []
  | segment :: outer =>
    if isIdle segment then directoriesAbove outer
    else ofSegments (outer.dropWhile isIdle).reverse :: directoriesAbove outer

/-- The paths of the directories above an entry, the nearest first. -/
def ancestors (path : String) : List String :=
  directoriesAbove (segments path).reverse

/-- The name of the entry at the end of a path. -/
def fileName? (path : String) : Option String :=
  match (segments path).reverse.dropWhile isIdle with
  | [] => none
  | name :: _ => if name = ".." then none else some name

/-- The parts of a name before and after its last dot. A name without a dot, or with only one that
begins it, has no second part. -/
def splitExtension (name : String) : String × Option String :=
  let reversed := name.toList.reverse
  match reversed.dropWhile (· != '.') with
  | [] | [_] => (name, none)
  | _ :: stem => (.ofList stem.reverse, some (.ofList (reversed.takeWhile (· != '.')).reverse))

/-- The name at the end of a path without its extension. -/
def fileStem? (path : String) : Option String :=
  (fileName? path).map fun name => (splitExtension name).1

/-- The extension of the name at the end of a path. -/
def extension? (path : String) : Option String :=
  (fileName? path).bind fun name => (splitExtension name).2

/-- Whether a path ends in the extension of drawings, in any case of ASCII letters. -/
def isDrawing (path : String) : Bool :=
  match extension? path with
  | some extension => Text.equalsIgnoringCase extension "svg"
  | none => false

/-- A step of a path, in the order in which steps are compared. -/
inductive Step where
  | root
  | here
  | up
  | down (name : String)
  deriving DecidableEq, Repr

/-- Whether a step does not come after another. -/
def Step.le : Step → Step → Bool
  | root, _ => true
  | here, root => false
  | here, _ => true
  | up, root | up, here => false
  | up, _ => true
  | down a, down b => a ≤ b
  | down _, _ => false

/-- The step that a segment makes. -/
def Step.ofSegment (segment : String) : Step :=
  if segment = ".." then .up else .down segment

/-- The steps of a path. Idle segments make none, but for the dot that a path may begin with. -/
def steps (path : String) : List Step :=
  let below := ((segments path).filter (!isIdle ·)).map .ofSegment
  if isAbsolute path then .root :: below
  else if (segments path).head? = some "." then .here :: below
  else below

/-- Whether a list of steps does not come after another: the first difference decides. -/
def stepsLe : List Step → List Step → Bool
  | [], _ => true
  | _ :: _, [] => false
  | a :: as, b :: bs => if a = b then stepsLe as bs else a.le b

/-- Whether a path does not come after another in a listing. -/
def le (a b : String) : Bool :=
  stepsLe (steps a) (steps b)

end Pictogram.Path
