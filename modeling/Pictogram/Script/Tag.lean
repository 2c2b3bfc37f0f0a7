import Pictogram.Script.Lexis

/-!
Elements inside a script: tags with their attributes, and what stands between them.
-/

namespace Pictogram.Script

/-- Takes a name of a tag or an attribute, or a part of one: a word that may go on behind a hyphen
with further hyphens. -/
def tagWord? (cs : List Char) : Option (List Char × List Char) := do
  let (word, rest) ← word? cs
  match rest with
  | '-' :: _ =>
    let isPart (c : Char) : Bool := c == '-' || Text.isIdentifierPart c
    some (word ++ rest.takeWhile isPart, rest.dropWhile isPart)
  | _ => some (word, rest)

/-- Takes the parts of a name behind dots. -/
def members? : Nat → List Char → Option (List (List Char) × List Char)
  | 0, cs => some ([], cs)
  | fuel + 1, cs => do
    match mark? '.' cs with
    | none => return ([], cs)
    | some rest =>
      let (word, rest) ← tagWord? rest
      let (words, rest) ← members? fuel rest
      return (('.' :: word) :: words, rest)

/-- Takes the name of an element: a word, one word of a namespace, or a path of members. The answer
holds its parts. -/
def elementName? (cs : List Char) : Option (List (List Char) × List Char) := do
  let (word, rest) ← tagWord? cs
  match mark? ':' rest with
  | some rest =>
    let (inner, rest) ← tagWord? rest
    return ([word, ':' :: inner], rest)
  | none =>
    let (words, rest) ← members? rest.length rest
    return (word :: words, rest)

/-- Takes the name of an attribute. -/
def attributeName? (cs : List Char) : Option (List Char) := do
  let (_, rest) ← tagWord? cs
  match mark? ':' rest with
  | some rest => (tagWord? rest).map (·.2)
  | none => some rest

/-- Takes an expression that is a name, behind its opening brace, and the closing one. -/
def namedValue? (cs : List Char) : Option (List Char) := do
  mark? '\x7d' (← name? cs)

/-- Takes the value of an attribute behind its equals sign: a text in quotes, which holds anything
but its quote, or a name in braces. -/
def attributeValue? (cs : List Char) : Option (List Char) := do
  match ← skip cs with
  | [] => none
  | c :: rest =>
    if c = '"' || c = '\'' then (Text.splitAround? [c] rest).map (·.2)
    else if c = '\x7b' then namedValue? rest
    else none

/-- Takes the attributes of a tag and answers with the text at its end. -/
def attributes? : Nat → List Char → Option (List Char)
  | 0, _ => none
  | fuel + 1, cs => do
    match ← skip cs with
    | [] => none
    | '/' :: rest => some ('/' :: rest)
    | '>' :: rest => some ('>' :: rest)
    | '\x7b' :: rest =>
      let rest ← Text.dropLiteral? "...".toList (← skip rest)
      attributes? fuel (← namedValue? rest)
    | rest =>
      let rest ← attributeName? rest
      match mark? '=' rest with
      | some rest => attributes? fuel (← attributeValue? rest)
      | none => attributes? fuel rest

mutual

/-- Takes an element behind its first bracket. An element without a name has no attributes and
cannot close itself. -/
def element? : Nat → List Char → Option (List Char)
  | 0, _ => none
  | fuel + 1, cs => do
    match mark? '>' cs with
    | some rest =>
      let rest ← children? fuel rest
      mark? '>' rest
    | none =>
      let (name, rest) ← elementName? cs
      let rest ← attributes? (rest.length + 1) rest
      match rest with
      | '/' :: rest => mark? '>' rest
      | '>' :: rest =>
        let rest ← children? fuel rest
        let (closingName, rest) ← elementName? rest
        if closingName = name then mark? '>' rest else none
      | _ => none

/-- Takes what stands in an element, with the bracket and the slash of its closing tag. -/
def children? : Nat → List Char → Option (List Char)
  | 0, _ => none
  | fuel + 1, cs => do
    match cs.dropWhile fun c => c != '<' && c != '\x7b' with
    | '<' :: rest =>
      match mark? '/' rest with
      | some rest => some rest
      | none => children? fuel (← element? fuel rest)
    | '\x7b' :: rest =>
      match mark? '\x7d' rest with
      | some rest => children? fuel rest
      | none => children? fuel (← namedValue? rest)
    | _ => none

end

end Pictogram.Script
