import Pictogram.Text.Lowercase.Table

/-!
Lower-casing of whole texts by the full Unicode rules: every letter on its own, except that a
capital sigma becomes a final sigma at the end of a word and that a capital I with a dot keeps the
dot as a character of its own.
-/

namespace Pictogram.Text

/-- The lower-case form of a single character whose form depends on nothing around it. -/
def lowerSimple (c : Char) : Char :=
  if c.toNat < 0x80 then c.toLower
  else
    match caseRuns.find? fun r =>
        r.first ≤ c.toNat && c.toNat ≤ r.last && (c.toNat - r.first) % r.step == 0 with
    | some r => Char.ofNat (c.toNat + r.shift).toNat
    | none => c

/-- Whether the first character that is not case-ignorable is cased. -/
def startsCased (cs : List Char) : Bool :=
  match cs.dropWhile caseIgnorable.contains with
  | c :: _ => cased.contains c
  | [] => false

/-- Lower-cases the second text; the first holds the characters before it, nearest first. -/
def lowerAfter (before : List Char) : List Char → List Char
  | [] => []
  | c :: cs =>
    if c = 'Σ' then
      (if startsCased before && !startsCased cs then 'ς' else 'σ') :: lowerAfter (c :: before) cs
    else if c = 'İ' then 'i' :: '\u0307' :: lowerAfter (c :: before) cs
    else lowerSimple c :: lowerAfter (c :: before) cs

/-- The lower-case form of a text. -/
def lowercase (text : String) : String :=
  .ofList (lowerAfter [] text.toList)

end Pictogram.Text
