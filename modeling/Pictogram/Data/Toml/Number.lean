import Pictogram.Data.Datum
import Pictogram.Data.Toml.Text
import Pictogram.Text.Digits

/-!
Numbers, dates and times of a TOML document. Only their form matters here: nothing that this library
reads from a document is a number or a date.
-/

namespace Pictogram.Toml

/-- Further digits of a number, each of which an underscore may precede. -/
def skipDigits (isDigit : Char → Bool) : List Char → List Char
  | [] => []
  | '_' :: d :: cs => if isDigit d then skipDigits isDigit cs else '_' :: d :: cs
  | c :: cs => if isDigit c then skipDigits isDigit cs else c :: cs

/-- At least one digit. -/
def digits? (isDigit : Char → Bool) : List Char → Option (List Char)
  | c :: cs => if isDigit c then some (skipDigits isDigit cs) else none
  | [] => none

/-- A decimal whole number without a sign, which has no zero at its front unless it is zero. -/
def whole? : List Char → Option (List Char)
  | '0' :: cs => some cs
  | cs => digits? Char.isDigit cs

/-- The text behind a sign. -/
def skipSign : List Char → List Char
  | '+' :: cs => cs
  | '-' :: cs => cs
  | cs => cs

/-- The exponent of a number. -/
def exponent? : List Char → Option (List Char)
  | 'e' :: cs | 'E' :: cs => digits? Char.isDigit (skipSign cs)
  | _ => none

/-- A number with a fraction or an exponent, or one of the two that are not finite. -/
def float? (cs : List Char) : Option (List Char) :=
  match skipSign cs with
  | 'i' :: 'n' :: 'f' :: cs => some cs
  | 'n' :: 'a' :: 'n' :: cs => some cs
  | cs => do
    match ← whole? cs with
    | '.' :: cs =>
      let cs ← digits? Char.isDigit cs
      return (exponent? cs).getD cs
    | cs => exponent? cs

/-- The value of what was read from a text, given the text behind it. -/
def valueRead (base : Nat) (cs rest : List Char) : Nat :=
  Text.numberOf base ((cs.take (cs.length - rest.length)).filter (· != '_'))

/-- The greatest whole number that 64 bits with a sign can hold. -/
def integerMax : Nat := 9223372036854775807

/-- A whole number that 64 bits with a sign can hold. -/
def integer? (cs : List Char) : Option (List Char) :=
  let based (base : Nat) (isDigit : Char → Bool) (cs : List Char) : Option (List Char) := do
    let rest ← digits? isDigit cs
    guard (valueRead base cs rest ≤ integerMax)
    return rest
  match cs with
  | '0' :: 'x' :: cs => based 16 (fun c => (Text.hexadecimalDigit? c).isSome) cs
  | '0' :: 'o' :: cs => based 8 (fun c => '0' ≤ c && c ≤ '7') cs
  | '0' :: 'b' :: cs => based 2 (fun c => c == '0' || c == '1') cs
  | _ => do
    let unsigned := skipSign cs
    let rest ← whole? unsigned
    let limit := if cs.head? = some '-' then integerMax + 1 else integerMax
    guard (valueRead 10 unsigned rest ≤ limit)
    return rest

/-- So many decimal digits, as a number between two bounds. -/
def field? (count low high : Nat) (cs : List Char) : Option (Nat × List Char) :=
  let digits := cs.take count
  let n := Text.numberOf 10 digits
  if digits.length = count && digits.all Char.isDigit && low ≤ n && n ≤ high then
    some (n, cs.drop count)
  else none

/-- The text behind a character. -/
def mark? (mark : Char) : List Char → Option (List Char)
  | c :: cs => if c = mark then some cs else none
  | [] => none

/-- The number of days of a month. -/
def daysIn (year month : Nat) : Nat :=
  let isLeap := year % 4 = 0 && (year % 100 ≠ 0 || year % 400 = 0)
  if month = 2 then (if isLeap then 29 else 28)
  else if month ∈ [4, 6, 9, 11] then 30
  else 31

/-- A date. -/
def date? (cs : List Char) : Option (List Char) := do
  let (year, cs) ← field? 4 0 9999 cs
  let (month, cs) ← field? 2 1 12 (← mark? '-' cs)
  let (_, cs) ← field? 2 1 (daysIn year month) (← mark? '-' cs)
  return cs

/-- A time of day. -/
def time? (cs : List Char) : Option (List Char) := do
  let (_, cs) ← field? 2 0 23 cs
  let (_, cs) ← field? 2 0 59 (← mark? ':' cs)
  let (_, cs) ← field? 2 0 60 (← mark? ':' cs)
  match cs with
  | '.' :: rest =>
    return if (rest.takeWhile Char.isDigit).isEmpty then cs else rest.dropWhile Char.isDigit
  | _ => return cs

/-- The distance from universal time. -/
def offset? : List Char → Option (List Char)
  | 'Z' :: cs | 'z' :: cs => some cs
  | sign :: cs => do
    guard (sign = '+' || sign = '-')
    let (_, cs) ← field? 2 0 23 cs
    let (_, cs) ← field? 2 0 59 (← mark? ':' cs)
    return cs
  | [] => none

/-- A date, a time of day, or both. -/
def dateTime? (cs : List Char) : Option (List Char) :=
  match date? cs with
  | none => time? cs
  | some rest =>
    match rest with
    | c :: later =>
      if c = 'T' || c = 't' || c = ' ' then
        match time? later with
        | some rest => some ((offset? rest).getD rest)
        | none => some rest
      else some rest
    | [] => some rest

/-- The key under which a date is kept: a date is a table of one entry that no record has. -/
def dateKey : String := "date"

/-- The least number that is too large for a float of 64 bits: halfway from the largest one to the
next power of two. -/
def floatLimit : Nat := Nat.pow 2 1024 - Nat.pow 2 970

/-- Whether `digits` times ten to the given power reaches the limit of floats. The power is cut
where the answer is settled: at the length of the limit, or at that of the digits. -/
def reachesLimit (digits : List Char) (power : Int) : Bool :=
  if power < 0 then
    floatLimit * Nat.pow 10 (min power.natAbs digits.length) ≤ Text.numberOf 10 digits
  else floatLimit ≤ Text.numberOf 10 digits * Nat.pow 10 (min power.natAbs 309)

/-- The power of ten that the text of an exponent gives. -/
def powerOf (cs : List Char) : Int :=
  let power : Nat := Text.numberOf 10 (skipSign cs)
  if cs.head? = some '-' then -power else power

/-- Whether the text of a float gives more than any float holds. There is no such limit for negative
numbers. -/
def isTooLarge (written : List Char) : Bool :=
  let cs := (skipSign written).filter (· != '_')
  let whole := cs.takeWhile Char.isDigit
  let fraction := match cs.dropWhile Char.isDigit with
    | '.' :: cs => cs.takeWhile Char.isDigit
    | _ => []
  let power := powerOf ((cs.dropWhile fun c => c.isDigit || c == '.').drop 1)
  written.head? != some '-' && reachesLimit (whole ++ fraction) (power - fraction.length)

/-- A date or a number. -/
def readNumeric (cs : List Char) : Option (Datum × List Char) :=
  let written (rest : List Char) : String := .ofList (cs.take (cs.length - rest.length))
  match dateTime? cs with
  | some rest => some (.table [(dateKey, .text (written rest))], rest)
  | none =>
    match float? cs with
    | some rest =>
      if isTooLarge (written rest).toList then none else some (.number (written rest), rest)
    | none => (integer? cs).map fun rest => (.number (written rest), rest)

end Pictogram.Toml
