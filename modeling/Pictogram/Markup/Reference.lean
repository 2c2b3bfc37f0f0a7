import Pictogram.Markup.Error
import Pictogram.Text.Blank
import Pictogram.Text.Digits
import Pictogram.Text.Utf8

/-!
Character references: the decoding of texts and attribute values, in which a character may be
written by one of five names or by its number.
-/

namespace Pictogram.Markup

/-- The number of a numeric reference, from the text behind its number sign. -/
def referenceNumber (cs : List Char) : Except ReferenceFault Nat :=
  match cs with
  | 'x' :: digits =>
    if 6 < Text.byteLength digits then .error .longHexadecimal
    else (Text.readNumber 16 Text.hexadecimalDigit? 0 digits).mapError
      fun c => .badHexadecimalDigit (Text.leadByte c)
  | digits =>
    if 7 < Text.byteLength digits then .error .longDecimal
    else (Text.readNumber 10 Text.decimalDigit? 0 digits).mapError
      fun c => .badDecimalDigit (Text.leadByte c)

/-- The character that a reference stands for. The reference starts at the given position; `name`
is the text between its ampersand and its semicolon. -/
def resolve (position : Nat) (name : List Char) : Except ReferenceFault Char :=
  let stop := position + 1 + Text.byteLength name
  match name with
  | '#' :: number => do
    let n ← referenceNumber number
    if n = 0 then .error (.null position stop)
    else
      match Text.characterOf? n with
      | some c => .ok c
      | none => .error (.notCharacter n)
  | _ =>
    match [("lt", '<'), ("gt", '>'), ("amp", '&'), ("apos", '\''), ("quot", '"')].lookup
        (String.ofList name) with
    | some c => .ok c
    | none => .error (.unknown (position + 1) stop (.ofList name))

/-- Whether a character is neither an ampersand nor a semicolon. -/
def inReference (c : Char) : Bool :=
  c != '&' && c != ';'

/-- Decodes a text that starts at the given position. -/
def decodeFrom (position : Nat) (cs : List Char) : Except ReferenceFault (List Char) :=
  match cs with
  | [] => .ok []
  | c :: cs =>
    if c = '&' then
      match _h : cs.dropWhile inReference with
      | ';' :: rest => do
        let name := cs.takeWhile inReference
        let char ← resolve position name
        let decoded ← decodeFrom (position + Text.byteLength name + 2) rest
        return char :: decoded
      | _ => .error (.unterminated position (position + 1 + Text.byteLength cs))
    else return c :: (← decodeFrom (position + c.utf8Size) cs)
termination_by cs.length
decreasing_by
  · have := Text.length_dropWhile_le inReference cs
    rw [_h] at this
    simp at this ⊢
    omega
  · simp

/-- The text with every reference replaced by its character. -/
def decode (text : String) : Except ReferenceFault String :=
  (decodeFrom 0 text.toList).map .ofList

end Pictogram.Markup
