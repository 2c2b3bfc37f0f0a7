/-!
White space and trimming. Three classes of white space occur in this library: Unicode White_Space
for the text of components and names, the four characters that separate things inside markup tags,
and ASCII white space for deciding that a stretch of markup text holds nothing.
-/

namespace Pictogram.Text

/-- A property of every character in a text is decided along the text, and not by a search through
all the characters there are. -/
instance decidableForallMem {p : Char → Prop} [DecidablePred p] (cs : List Char) :
    Decidable (∀ c ∈ cs, p c) :=
  List.decidableBAll p cs

/-- Unicode White_Space. -/
def isBlank (c : Char) : Bool :=
  let n := c.toNat
  (9 ≤ n && n ≤ 13) || n == 0x20 || n == 0x85 || n == 0xa0 || n == 0x1680 ||
    (0x2000 ≤ n && n ≤ 0x200a) || n == 0x2028 || n == 0x2029 || n == 0x202f || n == 0x205f ||
    n == 0x3000

/-- The separators inside a markup tag: space, tab and the two line break characters. -/
def isSpace (c : Char) : Bool :=
  c == ' ' || c == '\t' || c == '\r' || c == '\n'

/-- ASCII white space: the separators and the form feed. -/
def isAsciiBlank (c : Char) : Bool :=
  isSpace c || c == '\x0c'

theorem length_dropWhile_le (p : Char → Bool) (cs : List Char) :
    (cs.dropWhile p).length ≤ cs.length :=
  (List.dropWhile_suffix p).length_le

/-- Drops the longest suffix whose characters all satisfy `p`. -/
def dropEnd (p : Char → Bool) (cs : List Char) : List Char :=
  (cs.reverse.dropWhile p).reverse

/-- The text without blank characters at its end. -/
def trimEnd (cs : List Char) : List Char :=
  dropEnd isBlank cs

/-- The text without blank characters at either end. -/
def trim (cs : List Char) : List Char :=
  trimEnd (cs.dropWhile isBlank)

/-- Splits a text at every separator, keeping empty pieces; there is always at least one piece. -/
def splitWhere (isSeparator : Char → Bool) : List Char → List (List Char)
  | [] => [[]]
  | c :: cs =>
    if isSeparator c then [] :: splitWhere isSeparator cs
    else
      match splitWhere isSeparator cs with
      | [] => [[c]]
      | piece :: pieces => (c :: piece) :: pieces

end Pictogram.Text
