import Pictogram.Data.Toml.Document
import Pictogram.Data.Toml.Number

/-!
The reading of TOML documents. What is wrong with a document that cannot be read is not told.
-/

namespace Pictogram.Toml

/-- How deep arrays and tables in braces may be nested. -/
def maxDepth : Nat := 79

/-- The text behind blanks, line breaks and comments, as they may stand between the values of an
array. -/
def skipFiller : Nat → List Char → List Char
  | 0, cs => cs
  | fuel + 1, cs =>
    let cs := skipComment cs
    match dropBreak? cs with
    | some cs => skipFiller fuel cs
    | none => cs

mutual

/-- A value; `depth` bounds how deep it may be nested, and `fuel` the number of steps. -/
def readValue (depth : Nat) : Nat → List Char → Option (Datum × List Char)
  | 0, _ => none
  | fuel + 1, cs =>
    match cs with
    | '"' :: _ | '\'' :: _ => (readString cs).map fun (text, cs) => (.text text, cs)
    | '[' :: rest =>
      if depth = 0 then none
      else (readItems (depth - 1) fuel rest).map fun (items, cs) => (.list items, cs)
    | '\x7b' :: rest =>
      if depth = 0 then none
      else
        match skipBlanks rest with
        | '\x7d' :: cs => some (.table [], cs)
        | cs => do
          let (pairs, cs) ← readPairs (depth - 1) fuel cs
          return (← inlineTable? pairs, cs)
    | 't' :: 'r' :: 'u' :: 'e' :: cs => some (.bool true, cs)
    | 'f' :: 'a' :: 'l' :: 's' :: 'e' :: cs => some (.bool false, cs)
    | cs => readNumeric cs

/-- The values of an array, up to the closing bracket. -/
def readItems (depth : Nat) : Nat → List Char → Option (List Datum × List Char)
  | 0, _ => none
  | fuel + 1, cs =>
    match skipFiller cs.length cs with
    | ']' :: cs => some ([], cs)
    | cs => do
      let (item, cs) ← readValue depth fuel cs
      match skipFiller cs.length cs with
      | ']' :: cs => some ([item], cs)
      | ',' :: cs =>
        let (items, cs) ← readItems depth fuel cs
        return (item :: items, cs)
      | _ => none

/-- The pairs of a table in braces, up to the closing brace. -/
def readPairs (depth : Nat) : Nat → List Char → Option (List Pair × List Char)
  | 0, _ => none
  | fuel + 1, cs => do
    let ((path, key), cs) ← readKey (cs.length + 1) (skipBlanks cs)
    match skipBlanks cs with
    | '=' :: cs =>
      let (value, cs) ← readValue depth fuel (skipBlanks cs)
      match skipBlanks cs with
      | '\x7d' :: cs => some ([⟨path, key, value⟩], cs)
      | ',' :: cs =>
        let (pairs, cs) ← readPairs depth fuel cs
        return (⟨path, key, value⟩ :: pairs, cs)
      | _ => none
    | _ => none

end

/-- A line of a document: a pair, a header, or nothing. -/
inductive Line where
  | pair (pair : Pair)
  | table (path : List String) (key : String)
  | tables (path : List String) (key : String)
  | blank

/-- A key between brackets, with the text behind its closing brackets. -/
def readHeader (closing cs : List Char) : Option ((List String × String) × List Char) := do
  let (key, cs) ← readKey (cs.length + 1) (skipBlanks cs)
  return (key, ← Text.dropLiteral? closing (skipBlanks cs))

/-- What a line holds, with the text behind it on the line. -/
def readLine (cs : List Char) : Option (Line × List Char) :=
  match cs with
  | '[' :: '[' :: cs =>
    (readHeader [']', ']'] cs).map fun ((path, key), cs) => (.tables path key, cs)
  | '[' :: cs => (readHeader [']'] cs).map fun ((path, key), cs) => (.table path key, cs)
  | [] | '#' :: _ | '\n' :: _ | '\r' :: _ => some (.blank, cs)
  | cs => do
    let ((path, key), cs) ← readKey (cs.length + 1) cs
    match skipBlanks cs with
    | '=' :: cs =>
      let cs := skipBlanks cs
      let (value, cs) ← readValue maxDepth (cs.length + 1) cs
      return (.pair ⟨path, key, value⟩, cs)
    | _ => none

/-- The lines of a document. -/
def readLines : Nat → List Char → Option (List Line)
  | 0, _ => none
  | _ + 1, [] => some []
  | fuel + 1, cs => do
    let (line, cs) ← readLine (skipBlanks cs)
    return line :: (← readLines fuel (← endLine? cs))

/-- The parts that lines make up: the pairs at the front, and the headers with the pairs behind
them. -/
def sections : List Line → List Pair × List Section
  | [] => ([], [])
  | line :: lines =>
    let (pairs, rest) := sections lines
    match line with
    | .blank => (pairs, rest)
    | .pair p => (p :: pairs, rest)
    | .table path key => ([], .table path key pairs :: rest)
    | .tables path key => ([], .tables path key pairs :: rest)

/-- The table that a document holds. -/
def read? (text : String) : Option Datum := do
  let cs := match text.toList with
    | [] => []
    | c :: cs => if c = '\uFEFF' then cs else c :: cs
  let lines ← readLines (cs.length + 1) cs
  let (pairs, rest) := sections lines
  ofSections? (.front pairs :: rest)

end Pictogram.Toml
