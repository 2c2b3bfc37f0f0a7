import Pictogram.Text.Digits

/-!
The text of JSON objects whose values are texts and truth values.
-/

namespace Pictogram.JsonText

/-- A number of four hexadecimal digits. -/
def fourDigits (n : Nat) : List Char :=
  let digits := Text.hexadecimal n
  List.replicate (4 - digits.length) '0' ++ digits

/-- One character as it stands in a string. -/
def escapeChar (c : Char) : List Char :=
  if c = '"' then ['\\', '"']
  else if c = '\\' then ['\\', '\\']
  else if c = '\n' then ['\\', 'n']
  else if c = '\r' then ['\\', 'r']
  else if c = '\t' then ['\\', 't']
  else if c = '\x08' then ['\\', 'b']
  else if c = '\x0c' then ['\\', 'f']
  else if c < ' ' then '\\' :: 'u' :: fourDigits c.toNat
  else [c]

/-- A string. -/
def string (text : String) : String :=
  .ofList ('"' :: text.toList.flatMap escapeChar ++ ['"'])

/-- A truth value. -/
def bool (b : Bool) : String :=
  if b then "true" else "false"

/-- An object, one line for each member. -/
def object (members : List (String × String)) : String :=
  let line (member : String × String) : String := "  " ++ string member.1 ++ ": " ++ member.2
  "\x7b\n" ++ ",\n".intercalate (members.map line) ++ "\n\x7d"

end Pictogram.JsonText
