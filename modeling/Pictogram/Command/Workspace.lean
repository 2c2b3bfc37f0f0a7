import Pictogram.Command.Notice
import Pictogram.Files.Tree

/-!
Where commands run: a directory with files, an input, and places for output and notices. Commands
are written against the class, and the workspace in memory shows what they do as a function.
-/

namespace Pictogram

/-- What a command can do to the world around it. -/
class Workspace (m : Type → Type) where
  /-- The text in a file. -/
  read : String → m (Except FileError String)
  /-- Puts a text into a file, in place of what is there. -/
  write : String → String → m (Except FileError Unit)
  /-- Makes a directory and those above it, unless they are there. -/
  makeDirectories : String → m (Except FileError Unit)
  isDirectory : String → m Bool
  pathExists : String → m Bool
  /-- The paths of all files below a directory, in any order. -/
  filesBelow : String → m (List String)
  /-- The whole input. -/
  input : m (Except FileError String)
  /-- Adds to the output. -/
  print : String → m Unit
  notify : Notice → m Unit
  /-- How many milliseconds the command has taken so far, or a mark where there is no clock. -/
  elapsed : m String

/-- A workspace in memory. -/
structure Memory where
  tree : FileTree := {}
  input : String := ""
  output : String := ""
  /-- The notices so far, in order. -/
  notices : List Notice := []

/-- Replaces the files of a workspace unless they could not be changed. -/
def Memory.settle (result : Except FileError FileTree) : StateM Memory (Except FileError Unit) :=
  match result with
  | .ok tree => fun w => (.ok (), { w with tree })
  | .error e => fun w => (.error e, w)

instance : Workspace (StateM Memory) where
  read path := fun w => (w.tree.read path, w)
  write path text := fun w => Memory.settle (w.tree.write path text) w
  makeDirectories path := fun w => Memory.settle (w.tree.makeDirectories path) w
  isDirectory path := fun w => (w.tree.isDirectory path, w)
  pathExists path := fun w => (w.tree.pathExists path, w)
  filesBelow path := fun w => (w.tree.filesBelow path, w)
  input := fun w => (.ok w.input, w)
  print text := fun w => ((), { w with output := w.output ++ text })
  notify n := fun w => ((), { w with notices := w.notices ++ [n] })
  elapsed := fun w => ("_", w)

/-- A command: what it does in a workspace, and the answer or the failure it ends with. -/
abbrev Command (m : Type → Type) := ExceptT CommandError m

instance {m : Type → Type} {ε : Type} [Monad m] [Workspace m] : Workspace (ExceptT ε m) where
  read path := ExceptT.lift (Workspace.read path)
  write path text := ExceptT.lift (Workspace.write path text)
  makeDirectories path := ExceptT.lift (Workspace.makeDirectories path)
  isDirectory path := ExceptT.lift (Workspace.isDirectory path)
  pathExists path := ExceptT.lift (Workspace.pathExists path)
  filesBelow path := ExceptT.lift (Workspace.filesBelow path)
  input := ExceptT.lift Workspace.input
  print text := ExceptT.lift (Workspace.print text)
  notify n := ExceptT.lift (Workspace.notify n)
  elapsed := ExceptT.lift Workspace.elapsed

end Pictogram
