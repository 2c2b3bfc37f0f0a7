import Pictogram.Markup.Error
import Pictogram.Text.Blank
import Pictogram.Text.Literal
import Pictogram.Text.Utf8

/-!
Tokens of markup: stretches of text between tags, the tags, and everything that begins with an
exclamation or question mark. A token is read from the front of the text that is left, and the text
behind it is shorter.
-/

namespace Pictogram.Markup

/-- A piece of markup between two boundaries; the contents are as they stand in the text. -/
inductive Token where
  | text (raw : List Char)
  /-- A tag, without its brackets. -/
  | opening (content : List Char)
  /-- A tag that ends in a slash, without its brackets and the slash. -/
  | selfClosing (content : List Char)
  /-- A tag that begins with a slash, without its brackets and the slash. -/
  | closing (content : List Char)
  | cdata (raw : List Char)
  | comment (raw : List Char)
  | doctype (raw : List Char)
  | instruction (raw : List Char)
  deriving DecidableEq, Repr

/-- How many angle brackets are open after one more character. -/
def depthAfter (depth : Nat) (c : Char) : Nat :=
  if c = '<' then depth + 1 else if c = '>' then depth - 1 else depth

/-- The texts before and after the first angle bracket that closes no earlier one. -/
def splitBalanced (depth : Nat) : List Char → Option (List Char × List Char)
  | [] => none
  | c :: cs =>
    if c = '>' && depth = 0 then some ([], cs)
    else (splitBalanced (depthAfter depth c) cs).map fun (inner, rest) => (c :: inner, rest)

/-- The quote that is open after one more character of a tag. -/
def quoteAfter (open? : Option Char) (c : Char) : Option Char :=
  match open? with
  | some quote => if c = quote then none else some quote
  | none => if c = '"' || c = '\'' then some c else none

/-- The texts before and after the first closing bracket that stands outside quotes. -/
def splitTag (open? : Option Char) : List Char → Option (List Char × List Char)
  | [] => none
  | c :: cs =>
    if c = '>' && open?.isNone then some ([], cs)
    else (splitTag (quoteAfter open? c) cs).map fun (content, rest) => (c :: content, rest)

/-- The text before the first closing bracket and the text behind it; without a bracket the whole
text is before it. -/
def splitBracket (cs : List Char) : List Char × List Char :=
  (cs.takeWhile (· != '>'), (cs.dropWhile (· != '>')).drop 1)

/-- Drops a beginning of letters that are compared without regard to case. -/
def dropLetters? : List Char → List Char → Option (List Char)
  | [], cs => some cs
  | _ :: _, [] => none
  | l :: letters, c :: cs => if l = c.toUpper then dropLetters? letters cs else none

/-- What stands behind an exclamation mark. -/
def readDeclaration (cs : List Char) : Except Error (Token × List Char) :=
  match cs with
  | [] => .error (.unfinished .declaration)
  | c :: tail =>
    if c = '[' then
      match (dropLetters? "CDATA[".toList tail).bind (Text.splitAround? "]]>".toList) with
      | some (raw, rest) => .ok (.cdata raw, rest)
      | none => .error (.unfinished .cdata)
    else if c = '-' then
      match (Text.dropLiteral? ['-'] tail).bind (Text.splitAround? "-->".toList) with
      | some (raw, rest) => .ok (.comment raw, rest)
      | none => .error (.unfinished .comment)
    else if c = 'D' || c = 'd' then
      match (dropLetters? "OCTYPE".toList tail).bind (splitBalanced 0) with
      | some (raw, rest) =>
        if raw.all Text.isSpace then .error .emptyDoctype else .ok (.doctype raw, rest)
      | none => .error (.unfinished .doctype)
    else .error (.unknownDeclaration (Text.leadByte c))

/-- What stands behind a question mark: at least one character and another question mark, up to the
first bracket. -/
def readInstruction (cs : List Char) : Except Error (Token × List Char) :=
  let (raw, rest) := splitBracket cs
  if 2 ≤ raw.length && raw.getLast? = some '?' then .ok (.instruction raw, rest)
  else .error (.unfinished .instruction)

/-- A tag that does not close an earlier one. -/
def readTag (cs : List Char) : Except Error (Token × List Char) :=
  match splitTag none cs with
  | none => .error (.unfinished .tag)
  | some (content, rest) =>
    if content.getLast? = some '/' then .ok (.selfClosing content.dropLast, rest)
    else .ok (.opening content, rest)

/-- What stands behind an opening bracket. -/
def readBracket (c : Char) (cs : List Char) : Except Error (Token × List Char) :=
  if c = '!' then readDeclaration cs
  else if c = '/' then
    let (content, rest) := splitBracket cs
    .ok (.closing content, rest)
  else if c = '?' then readInstruction cs
  else readTag (c :: cs)

/-- The first token of a text and the text behind it. There is none at the end of the text, and an
opening bracket that ends the text is as good as its end. -/
def nextToken (cs : List Char) : Except Error (Option (Token × List Char)) :=
  match cs with
  | [] => .ok none
  | c :: tail =>
    if c = '<' then
      match tail with
      | [] => .ok none
      | d :: tail => (readBracket d tail).map some
    else .ok (some (.text (c :: tail.takeWhile (· != '<')), tail.dropWhile (· != '<')))

theorem length_splitBalanced {depth : Nat} {cs inner rest : List Char}
    (h : splitBalanced depth cs = some (inner, rest)) : rest.length < cs.length := by
  induction cs generalizing depth inner with
  | nil => simp [splitBalanced] at h
  | cons c cs ih =>
    rw [splitBalanced] at h
    split at h
    · simp_all
    · obtain ⟨⟨i, r⟩, hr, he⟩ := Option.map_eq_some_iff.1 h
      obtain ⟨rfl, rfl⟩ := Prod.mk.inj he
      exact Nat.lt_succ_of_lt (ih hr)

theorem length_splitTag {open? : Option Char} {cs content rest : List Char}
    (h : splitTag open? cs = some (content, rest)) : rest.length < cs.length := by
  induction cs generalizing open? content with
  | nil => simp [splitTag] at h
  | cons c cs ih =>
    rw [splitTag] at h
    split at h
    · simp_all
    · obtain ⟨⟨i, r⟩, hr, he⟩ := Option.map_eq_some_iff.1 h
      obtain ⟨rfl, rfl⟩ := Prod.mk.inj he
      exact Nat.lt_succ_of_lt (ih hr)

theorem length_splitBracket (cs : List Char) : (splitBracket cs).2.length ≤ cs.length := by
  have := Text.length_dropWhile_le (· != '>') cs
  simp only [splitBracket, List.length_drop]
  omega

theorem length_dropLetters? {letters cs rest : List Char}
    (h : dropLetters? letters cs = some rest) : rest.length ≤ cs.length := by
  fun_induction dropLetters? letters cs with
  | case1 => simp_all
  | case2 => simp at h
  | case3 letters c cs ih => exact Nat.le_succ_of_le (ih h)
  | case4 => simp at h

theorem length_readDeclaration {cs rest : List Char} {token : Token}
    (h : readDeclaration cs = .ok (token, rest)) : rest.length < cs.length := by
  cases cs with
  | nil => simp [readDeclaration] at h
  | cons c tail =>
    simp only [readDeclaration] at h
    split at h
    · split at h
      next raw r hr =>
        obtain ⟨middle, hm, hs⟩ := Option.bind_eq_some_iff.1 hr
        have h1 := length_dropLetters? hm
        have h2 := congrArg List.length (Text.eq_append_of_splitAround? hs)
        simp_all
        omega
      next => simp at h
    · split at h
      · split at h
        next raw r hr =>
          obtain ⟨middle, hm, hs⟩ := Option.bind_eq_some_iff.1 hr
          have h1 := congrArg List.length (Text.dropLiteral?_eq_some_iff.1 hm)
          have h2 := congrArg List.length (Text.eq_append_of_splitAround? hs)
          simp_all
          omega
        next => simp at h
      · split at h
        · split at h
          next raw r hr =>
            obtain ⟨middle, hm, hs⟩ := Option.bind_eq_some_iff.1 hr
            have h1 := length_dropLetters? hm
            have h2 := length_splitBalanced hs
            split at h
            · simp at h
            · simp_all
              omega
          next => simp at h
        · simp at h

theorem length_readBracket {c : Char} {cs rest : List Char} {token : Token}
    (h : readBracket c cs = .ok (token, rest)) : rest.length ≤ cs.length := by
  simp only [readBracket] at h
  have hb := length_splitBracket cs
  split at h
  · exact Nat.le_of_lt (length_readDeclaration h)
  · split at h
    · simp_all
    · split at h
      · simp only [readInstruction] at h
        split at h <;> simp_all
      · simp only [readTag] at h
        split at h
        · cases h
        next content r hr =>
          have hlt := length_splitTag hr
          have heq : r = rest := by
            split at h
            · exact (Prod.mk.inj (Except.ok.inj h)).2
            · exact (Prod.mk.inj (Except.ok.inj h)).2
          rw [List.length_cons, heq] at hlt
          exact Nat.le_of_lt_succ hlt

/-- The text behind a token is shorter than the text it was read from. -/
theorem length_nextToken {cs rest : List Char} {token : Token}
    (h : nextToken cs = .ok (some (token, rest))) : rest.length < cs.length := by
  cases cs with
  | nil => simp [nextToken] at h
  | cons c tail =>
    simp only [nextToken] at h
    split at h
    · split at h
      · simp at h
      next d tail =>
        cases hr : readBracket d tail with
        | error e => simp [hr, Except.map] at h
        | ok result =>
          obtain ⟨t, r⟩ := result
          rw [hr] at h
          obtain ⟨_, rfl⟩ := Prod.mk.inj (Option.some.inj (Except.ok.inj h))
          have hle := length_readBracket hr
          rw [List.length_cons, List.length_cons]
          omega
    · obtain ⟨_, rfl⟩ := Prod.mk.inj (Option.some.inj (Except.ok.inj h))
      have hle := Text.length_dropWhile_le (· != '<') tail
      rw [List.length_cons]
      omega

end Pictogram.Markup
