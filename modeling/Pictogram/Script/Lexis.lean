import Pictogram.Text.Identifier
import Pictogram.Text.Literal

/-!
The words and marks of a script, and what may stand between them.

Everything here takes something from the front of a text and answers with the text behind it, or
with nothing if it is not there.
-/

namespace Pictogram.Script

/-- Ends a line of a script. -/
def isLineEnd (c : Char) : Bool :=
  c == '\n' || c == '\r' || c == '\u2028' || c == '\u2029'

/-- Blanks between the words of a script. -/
def isFiller (c : Char) : Bool :=
  isLineEnd c || c == '\t' || c == '\x0b' || c == '\x0c' || c == ' ' || c == '\u00a0' ||
    c == '\u1680' || ('\u2000' ≤ c && c ≤ '\u200a') || c == '\u202f' || c == '\u205f' ||
    c == '\u3000' || c == '\uFEFF'

/-- Skips blanks and comments. A comment that is not closed has no text behind it. -/
def skipTrivia : Nat → List Char → Option (List Char)
  | 0, cs => some cs
  | fuel + 1, cs =>
    match cs.dropWhile isFiller with
    | '/' :: '/' :: rest => skipTrivia fuel (rest.dropWhile (!isLineEnd ·))
    | '/' :: '*' :: rest => (Text.splitAround? ['*', '/'] rest).bind fun (_, rest) =>
      skipTrivia fuel rest
    | rest => some rest

/-- Skips blanks and comments. -/
def skip (cs : List Char) : Option (List Char) :=
  skipTrivia (cs.length + 1) cs

/-- Takes a mark of one character. -/
def mark? (mark : Char) (cs : List Char) : Option (List Char) := do
  match ← skip cs with
  | c :: rest => if c = mark then some rest else none
  | [] => none

/-- Takes a word: an identifier or a keyword. -/
def word? (cs : List Char) : Option (List Char × List Char) := do
  match ← skip cs with
  | c :: rest =>
    if Text.isIdentifierStart c then
      some (c :: rest.takeWhile Text.isIdentifierPart, rest.dropWhile Text.isIdentifierPart)
    else none
  | [] => none

/-- Words that cannot name anything. -/
def reservedWords : List String := [
  "await", "break", "case", "catch", "class", "const", "continue", "debugger", "default", "delete",
  "do", "else", "enum", "export", "extends", "false", "finally", "for", "function", "if", "import",
  "in", "instanceof", "new", "null", "return", "super", "switch", "this", "throw", "true", "try",
  "typeof", "var", "void", "while", "with"]

/-- Takes a word that names something. -/
def name? (cs : List Char) : Option (List Char) := do
  let (word, rest) ← word? cs
  if reservedWords.contains (.ofList word) then none else some rest

/-- Takes the given keyword. -/
def keyword? (keyword : String) (cs : List Char) : Option (List Char) := do
  let (word, rest) ← word? cs
  if word = keyword.toList then some rest else none

/-- Takes the rest of a text in quotes on one line. -/
def quotedRest? (quote : Char) (cs : List Char) : Option (List Char) :=
  match cs.dropWhile fun c => c != quote && c != '\\' && !isLineEnd c with
  | c :: rest => if c = quote then some rest else none
  | [] => none

/-- Takes the rest of a whole number, which no word follows. -/
def numberRest? (cs : List Char) : Option (List Char) :=
  match cs.dropWhile Char.isDigit with
  | c :: rest => if Text.isIdentifierStart c then none else some (c :: rest)
  | [] => some []

/-- Takes a literal: a whole number, or a text in quotes. -/
def literal? (cs : List Char) : Option (List Char) := do
  match ← skip cs with
  | '"' :: rest => quotedRest? '"' rest
  | '\'' :: rest => quotedRest? '\'' rest
  | c :: rest => if c.isDigit then numberRest? rest else none
  | [] => none

end Pictogram.Script
