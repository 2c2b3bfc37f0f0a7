import Pictogram.Text.Blank

/-!
Lines of a text, and the layout every generated source ends in: no line has blanks at its end and
the last line that shows something is followed by one line break.
-/

namespace Pictogram.Text

/-- The lines of a text. A line break ends a line, so a final one opens no further line. -/
def lines : List Char → List (List Char)
  | [] => []
  | c :: cs =>
    if c = '\n' then [] :: lines cs
    else
      match lines cs with
      | [] => [[c]]
      | line :: rest => (c :: line) :: rest

/-- Joins lines with a line break between each two. -/
def joinLines : List (List Char) → List Char
  | [] => []
  | [line] => line
  | line :: next :: rest => line ++ '\n' :: joinLines (next :: rest)

/-- Drops the empty lines after the last line that is not empty. -/
def dropFinalEmpty (ls : List (List Char)) : List (List Char) :=
  (ls.reverse.dropWhile List.isEmpty).reverse

/-- Trims the end of every line, drops the empty lines at the end of the text and ends it with one
line break. -/
def tidyChars (cs : List Char) : List Char :=
  joinLines (dropFinalEmpty ((lines cs).map trimEnd)) ++ ['\n']

/-- The tidy layout of a text. -/
def tidy (text : String) : String :=
  .ofList (tidyChars text.toList)

end Pictogram.Text
