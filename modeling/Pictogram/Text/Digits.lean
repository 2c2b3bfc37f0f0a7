/-!
Numbers written in digits, and the characters that numbers stand for.
-/

namespace Pictogram.Text

/-- The value of a hexadecimal digit. -/
def hexadecimalDigit? (c : Char) : Option Nat :=
  if c.isDigit then some (c.toNat - '0'.toNat)
  else if 'a' ≤ c && c ≤ 'f' then some (c.toNat - 'a'.toNat + 10)
  else if 'A' ≤ c && c ≤ 'F' then some (c.toNat - 'A'.toNat + 10)
  else none

/-- The value of a decimal digit. -/
def decimalDigit? (c : Char) : Option Nat :=
  if c.isDigit then some (c.toNat - '0'.toNat) else none

/-- The number that digits to a base write after a number already read; the first character that is
no digit is the answer of a failure. -/
def readNumber (base : Nat) (digit? : Char → Option Nat) (number : Nat) :
    List Char → Except Char Nat
  | [] => .ok number
  | c :: cs =>
    match digit? c with
    | some d => readNumber base digit? (base * number + d) cs
    | none => .error c

/-- The number that digits to a base write. What is no digit counts as a zero. -/
def numberOf (base : Nat) (cs : List Char) : Nat :=
  cs.foldl (fun n c => base * n + (hexadecimalDigit? c).getD 0) 0

/-- A number in lower-case hexadecimal digits. -/
def hexadecimal (n : Nat) : List Char :=
  Nat.toDigits 16 n

/-- The character of a number. -/
def characterOf? (n : Nat) : Option Char :=
  if h : n.isValidChar then some (.ofNatAux n h) else none

end Pictogram.Text
