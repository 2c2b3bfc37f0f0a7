import Pictogram.Text.Digits
import Pictogram.Text.Literal

/-!
The texts of a TOML document: comments, line breaks, quoted strings and keys.
-/

namespace Pictogram.Toml

/-- A reader of something at the front of a text; it fails, or answers with what it has read and the
text behind it. -/
abbrev Reader (α : Type) := List Char → Option (α × List Char)

/-- Blanks inside a line. -/
def isLineBlank (c : Char) : Bool :=
  c == ' ' || c == '\t'

/-- The text behind the blanks at its front. -/
def skipBlanks (cs : List Char) : List Char :=
  cs.dropWhile isLineBlank

/-- A character that may stand in comments and in literal strings. -/
def isPlain (c : Char) : Bool :=
  c == '\t' || (' ' ≤ c && c != '\x7f')

/-- The text behind a line break at its front. -/
def dropBreak? : List Char → Option (List Char)
  | '\n' :: cs => some cs
  | '\r' :: '\n' :: cs => some cs
  | _ => none

/-- The text behind blanks and a comment. -/
def skipComment (cs : List Char) : List Char :=
  match skipBlanks cs with
  | '#' :: cs => cs.dropWhile isPlain
  | cs => cs

/-- The text behind the rest of a line that may hold a comment but nothing else. -/
def endLine? (cs : List Char) : Option (List Char) :=
  match skipComment cs with
  | [] => some []
  | cs => dropBreak? cs

/-- The character that so many hexadecimal digits at the front of a text write. -/
def readCodePoint (count : Nat) : Reader Char := fun cs =>
  let digits := cs.take count
  if digits.length < count then none
  else
    match Text.readNumber 16 Text.hexadecimalDigit? 0 digits with
    | .ok n => (Text.characterOf? n).map (·, cs.drop count)
    | .error _ => none

/-- The character of an escape, behind its backslash. -/
def readEscape : Reader Char
  | 'b' :: cs => some ('\x08', cs)
  | 't' :: cs => some ('\t', cs)
  | 'n' :: cs => some ('\n', cs)
  | 'f' :: cs => some ('\x0c', cs)
  | 'r' :: cs => some ('\r', cs)
  | '"' :: cs => some ('"', cs)
  | '\\' :: cs => some ('\\', cs)
  | 'u' :: cs => readCodePoint 4 cs
  | 'U' :: cs => readCodePoint 8 cs
  | _ => none

/-- The text behind blanks and line breaks. -/
def skipLines : Nat → List Char → List Char
  | 0, cs => cs
  | fuel + 1, cs =>
    let cs := skipBlanks cs
    match dropBreak? cs with
    | some cs => skipLines fuel cs
    | none => cs

/-- The rest of a string in double quotes, up to the closing quote. -/
def readBasic : Nat → Reader (List Char)
  | 0, _ => none
  | fuel + 1, cs =>
    match cs with
    | '"' :: cs => some ([], cs)
    | '\\' :: cs => do
      let (c, cs) ← readEscape cs
      let (text, cs) ← readBasic fuel cs
      return (c :: text, cs)
    | c :: cs =>
      if isPlain c then do
        let (text, cs) ← readBasic fuel cs
        return (c :: text, cs)
      else none
    | [] => none

/-- The rest of a string in single quotes, up to the closing quote. -/
def readLiteral (cs : List Char) : Option (List Char × List Char) :=
  match cs.dropWhile fun c => isPlain c && c != '\'' with
  | '\'' :: rest => some (cs.takeWhile fun c => isPlain c && c != '\'', rest)
  | _ => none

/-- The end of a string over several lines: three quotes, of which up to two more before them belong
to the string. -/
def closeLong? (quote : Char) (cs : List Char) : Option (List Char × List Char) :=
  let count := (cs.takeWhile (· == quote)).length
  if count < 3 then none
  else
    let inside := min (count - 3) 2
    some (List.replicate inside quote, cs.drop (inside + 3))

/-- The rest of a string over several lines. In double quotes escapes count, and a backslash at the
end of a line takes away all blanks and line breaks behind it. -/
def readLong (quote : Char) : Nat → Reader (List Char)
  | 0, _ => none
  | fuel + 1, cs =>
    match closeLong? quote cs with
    | some result => some result
    | none =>
      match dropBreak? cs with
      | some cs => do
        let (text, cs) ← readLong quote fuel cs
        return ('\n' :: text, cs)
      | none =>
        match cs with
        | [] => none
        | c :: cs =>
          if c = '\\' && quote = '"' then
            match dropBreak? (skipBlanks cs) with
            | some cs => readLong quote fuel (skipLines cs.length cs)
            | none => do
              let (e, cs) ← readEscape cs
              let (text, cs) ← readLong quote fuel cs
              return (e :: text, cs)
          else if isPlain c then do
            let (text, cs) ← readLong quote fuel cs
            return (c :: text, cs)
          else none

/-- The text without a line break at its front. -/
def dropFirstBreak (cs : List Char) : List Char :=
  (dropBreak? cs).getD cs

/-- A string of any kind. -/
def readString (cs : List Char) : Option (String × List Char) :=
  let result := match cs with
    | '"' :: '"' :: '"' :: cs => readLong '"' (cs.length + 1) (dropFirstBreak cs)
    | '\'' :: '\'' :: '\'' :: cs => readLong '\'' (cs.length + 1) (dropFirstBreak cs)
    | '"' :: cs => readBasic (cs.length + 1) cs
    | '\'' :: cs => readLiteral cs
    | _ => none
  result.map fun (text, cs) => (.ofList text, cs)

/-- A character of a key without quotes. -/
def isKeyChar (c : Char) : Bool :=
  c.isAlphanum || c == '-' || c == '_'

/-- One part of a key. -/
def readKeyPart (cs : List Char) : Option (String × List Char) :=
  match cs with
  | '"' :: cs => (readBasic (cs.length + 1) cs).map fun (text, cs) => (.ofList text, cs)
  | '\'' :: cs => (readLiteral cs).map fun (text, cs) => (.ofList text, cs)
  | cs =>
    match cs.takeWhile isKeyChar with
    | [] => none
    | name => some (.ofList name, cs.dropWhile isKeyChar)

/-- A key: the parts before the last one, and the last. Blanks may stand around its dots. -/
def readKey : Nat → List Char → Option ((List String × String) × List Char)
  | 0, _ => none
  | fuel + 1, cs => do
    let (part, cs) ← readKeyPart cs
    match skipBlanks cs with
    | '.' :: rest =>
      let ((path, key), cs) ← readKey fuel (skipBlanks rest)
      return ((part :: path, key), cs)
    | _ => return (([], part), cs)

end Pictogram.Toml
