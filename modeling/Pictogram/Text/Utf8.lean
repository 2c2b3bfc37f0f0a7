/-!
Sizes and leading bytes of texts in UTF-8, in which messages count positions.
-/

namespace Pictogram.Text

/-- The number of bytes of a text. -/
def byteLength : List Char → Nat
  | [] => 0
  | c :: cs => c.utf8Size + byteLength cs

/-- The first byte of a character, shown as the character of that code point. -/
def leadByte (c : Char) : Char :=
  match String.utf8EncodeChar c with
  | b :: _ => .ofNat b.toNat
  | [] => c

end Pictogram.Text
