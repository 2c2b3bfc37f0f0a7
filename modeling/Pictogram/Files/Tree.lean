import Pictogram.Files.Error
import Pictogram.Files.Path

/-!
File trees: a file system as a value, with the directory that paths start from, and what the file
operations do to it.

Paths are followed segment by segment, and each failure has the cause that the first segment that
cannot be followed has. A place is given by the names that lead to it from the root.
-/

namespace Pictogram

/-- The text of bytes. -/
def textOfBytes (bytes : ByteArray) : Except FileError String :=
  match String.fromUTF8? bytes with
  | some text => .ok text
  | none => .error .notText

/-- What a path of a tree leads to. -/
inductive Node where
  | directory
  | file (content : ByteArray)

/-- Whether a node is a directory. -/
def Node.isDirectory : Node → Bool
  | directory => true
  | file _ => false

/-- The entries below the root of a file system, by the names that lead to them. -/
structure FileTree where
  entries : List (List String × Node) := []
  /-- The place that paths start from, unless they start at the root. -/
  here : List String := []

namespace FileTree

/-- What the given names lead to. -/
def node? (t : FileTree) (names : List String) : Option Node :=
  if names = [] then some .directory else t.entries.lookup names

/-- Puts a node in place of whatever the names led to. -/
def put (t : FileTree) (names : List String) (node : Node) : FileTree :=
  { t with entries := t.entries.filter (·.1 ≠ names) ++ [(names, node)] }

/-- Puts a node at the end of the names behind `above`, with the directories on the way that are
missing. -/
def plant (t : FileTree) (above : List String) (node : Node) : List String → FileTree
  | [] => t
  | [name] => t.put (above ++ [name]) node
  | name :: next :: rest =>
    let here := above ++ [name]
    let t := if (t.node? here).isSome then t else t.put here .directory
    t.plant here node (next :: rest)

/-- Takes away what the names lead to and everything below it. -/
def remove (t : FileTree) (names : List String) : FileTree :=
  { t with entries := t.entries.filter (!names.isPrefixOf ·.1) }

/-- Whether a place is a directory. -/
def isDirectoryAt (t : FileTree) (names : List String) : Bool :=
  match t.node? names with
  | some node => node.isDirectory
  | none => false

/-- The most bytes a name of an entry has. -/
def maxNameBytes : Nat := 255

/-- The number of bytes that is too many for a path. -/
def pathBytesLimit : Nat := 4096

/-- Goes one segment further. Nothing lies above the root but the root itself. -/
def enter (t : FileTree) (names : List String) (segment : String) :
    Except FileError (List String) :=
  if !t.isDirectoryAt names then .error .notDirectory
  else if Path.isIdle segment then .ok names
  else if segment = ".." then .ok names.dropLast
  else if maxNameBytes < segment.utf8ByteSize then .error .nameTooLong
  else if (t.node? (names ++ [segment])).isSome then .ok (names ++ [segment])
  else .error .notFound

/-- Follows segments from a place. -/
def follow (t : FileTree) (names : List String) : List String → Except FileError (List String)
  | [] => .ok names
  | segment :: rest =>
    match t.enter names segment with
    | .error e => .error e
    | .ok next => t.follow next rest

/-- Where following a path starts. -/
def start (t : FileTree) (path : String) : List String :=
  if Path.isAbsolute path then [] else t.here

/-- Refuses what is no path at all. -/
def checkPath (path : String) : Except FileError Unit :=
  if path.toList.contains '\x00' then .error .nullInPath
  else if path = "" then .error .notFound
  else if pathBytesLimit ≤ path.utf8ByteSize then .error .nameTooLong
  else .ok ()

/-- The place that a path leads to. -/
def locate (t : FileTree) (path : String) : Except FileError (List String) := do
  checkPath path
  t.follow (t.start path) (Path.segments path)

/-- Whether a path leads anywhere. -/
def pathExists (t : FileTree) (path : String) : Bool :=
  (t.locate path).isOk

/-- Whether a path leads to a directory. -/
def isDirectory (t : FileTree) (path : String) : Bool :=
  match t.locate path with
  | .ok names => t.isDirectoryAt names
  | .error _ => false

/-- The text at a place. -/
def textAt (t : FileTree) (names : List String) : Except FileError String :=
  match t.node? names with
  | none => .error .notFound
  | some .directory => .error .isDirectory
  | some (.file content) => textOfBytes content

/-- The text in a file. -/
def read (t : FileTree) (path : String) : Except FileError String := do
  t.textAt (← t.locate path)

/-- A path taken apart for making its last entry. -/
structure Target where
  /-- The segments before the last one that is not empty. -/
  before : List String
  last : String
  /-- Whether slashes follow the last segment. -/
  slashed : Bool

/-- Takes a path apart for making its last entry; a path of slashes alone has none. -/
def target? (path : String) : Option Target :=
  let reversed := (Path.segments path).reverse
  match reversed.dropWhile (· = "") with
  | [] => none
  | last :: before => some ⟨before.reverse, last, reversed.head? = some ""⟩

/-- The place of the entry that a path would make, where its directory is there. Nothing is made for
a segment that is no name, for which the answer is the given error. -/
def newEntry (t : FileTree) (path : String) (whenNoName : FileError) (nameMustEnd : Bool) :
    Except FileError (List String) := do
  checkPath path
  match target? path with
  | none => .error whenNoName
  | some target =>
    let names ← t.follow (t.start path) target.before
    if !t.isDirectoryAt names then .error .notDirectory
    else if target.last = "." || target.last = ".." || (nameMustEnd && target.slashed) then
      .error whenNoName
    else if maxNameBytes < target.last.utf8ByteSize then .error .nameTooLong
    else .ok (names ++ [target.last])

/-- Writes a text to a file, in place of what is there. -/
def write (t : FileTree) (path text : String) : Except FileError FileTree := do
  let names ← t.newEntry path .isDirectory true
  if t.isDirectoryAt names then .error .isDirectory else .ok (t.put names (.file text.toUTF8))

/-- Makes a directory. -/
def makeDirectory (t : FileTree) (path : String) : Except FileError FileTree := do
  let names ← t.newEntry path .alreadyExists false
  if (t.node? names).isSome then .error .alreadyExists else .ok (t.put names .directory)

/-- The tree as it is if a path leads to a directory, or else the error. -/
def unlessDirectory (t : FileTree) (path : String) (e : FileError) : Except FileError FileTree :=
  if t.isDirectory path then .ok t else .error e

/-- Makes the first of some directories unless it is there, after those behind it in the list, which
lie above it, where they are missing. An empty path needs nothing made. -/
def makeInnermost (t : FileTree) : List String → Except FileError FileTree
  | [] => .error .notFound
  | path :: above =>
    if path = "" then .ok t
    else
      match t.makeDirectory path with
      | .ok t => .ok t
      | .error .notFound =>
        match t.makeInnermost above with
        | .error e => .error e
        | .ok t =>
          match t.makeDirectory path with
          | .ok t => .ok t
          | .error e => t.unlessDirectory path e
      | .error e => t.unlessDirectory path e

/-- Makes a directory unless it is there, with the directories above it that are missing. -/
def makeDirectories (t : FileTree) (path : String) : Except FileError FileTree :=
  t.makeInnermost (path :: Path.ancestors path)

/-- Whether the entries of the directory that the given names lead to from a path are listed. The
path of a directory below the first can be too long for that. -/
def isListed (path : String) (names : List String) : Bool :=
  names = [] || (Path.join path (Path.ofSegments names)).utf8ByteSize < pathBytesLimit

/-- The path that an entry is found by below the place that a path leads to, if it is a file. -/
def foundPath? (path : String) (names : List String) : List String × Node → Option String
  | (_, .directory) => none
  | (entry, .file _) =>
    match names.isPrefixOf? entry with
    | some (name :: more) =>
      if isListed path (name :: more).dropLast then
        some (Path.join path (Path.ofSegments (name :: more)))
      else none
    | _ => none

/-- The paths of all files below a directory, as they are reached through the given path. -/
def filesBelow (t : FileTree) (path : String) : List String :=
  match t.locate path with
  | .ok names => t.entries.filterMap (foundPath? path names)
  | .error _ => []

end FileTree

end Pictogram
