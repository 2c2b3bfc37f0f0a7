import Pictogram.Component.Dialect
import Pictogram.Script.Tag

/-!
Modules of a script, as far as components need them: interfaces in the typed dialect, and functions
that return an expression.
-/

namespace Pictogram.Script

/-- Takes an expression: a name, a literal, an element, or an expression in parentheses. -/
def expression? : Nat → List Char → Option (List Char)
  | 0, _ => none
  | fuel + 1, cs => do
    match ← skip cs with
    | '(' :: rest => mark? ')' (← expression? fuel rest)
    | '<' :: rest => element? (rest.length + 1) rest
    | rest => (literal? rest).or (name? rest)

/-- Takes alternatives of named types. -/
def type? : Nat → List Char → Option (List Char)
  | 0, _ => none
  | fuel + 1, cs => do
    let (_, rest) ← word? cs
    match mark? '|' rest with
    | some rest => type? fuel rest
    | none => some rest

/-- Takes the type behind a name, if there is one and the dialect has types. -/
def annotation? (dialect : Dialect) (cs : List Char) : Option (List Char) :=
  match mark? ':' cs with
  | some rest => if dialect.isTyped then type? (rest.length + 1) rest else none
  | none => some cs

/-- Takes a default value, if there is one. -/
def default? (cs : List Char) : Option (List Char) :=
  match mark? '=' cs with
  | some rest => expression? (rest.length + 1) rest
  | none => some cs

/-- Takes the members of an interface up to its closing brace. -/
def fields? : Nat → List Char → Option (List Char)
  | 0, _ => none
  | fuel + 1, cs =>
    match mark? '\x7d' cs with
    | some rest => some rest
    | none => do
      let (_, rest) ← word? cs
      let rest := (mark? '?' rest).getD rest
      let rest ← annotation? .typed rest
      match (mark? ';' rest).or (mark? ',' rest) with
      | some rest => fields? fuel rest
      | none => mark? '\x7d' rest

/-- Takes the names of a destructuring pattern up to its closing brace. -/
def bindings? : Nat → List Char → Option (List Char)
  | 0, _ => none
  | fuel + 1, cs =>
    match mark? '\x7d' cs with
    | some rest => some rest
    | none => do
      let rest ← default? (← name? cs)
      match mark? ',' rest with
      | some rest => bindings? fuel rest
      | none => mark? '\x7d' rest

/-- Takes the parameters of a function up to the closing parenthesis. -/
def parameters? (dialect : Dialect) : Nat → List Char → Option (List Char)
  | 0, _ => none
  | fuel + 1, cs =>
    match mark? ')' cs with
    | some rest => some rest
    | none => do
      let rest ← match mark? '\x7b' cs with
        | some rest => bindings? (rest.length + 1) rest
        | none => name? cs
      let rest ← default? (← annotation? dialect rest)
      match mark? ',' rest with
      | some rest => parameters? dialect fuel rest
      | none => mark? ')' rest

/-- Takes the statements of a function up to its closing brace. -/
def statements? : Nat → List Char → Option (List Char)
  | 0, _ => none
  | fuel + 1, cs =>
    match mark? '\x7d' cs with
    | some rest => some rest
    | none =>
      match mark? ';' cs with
      | some rest => statements? fuel rest
      | none => do
        let rest ← keyword? "return" cs
        let rest := (expression? (rest.length + 1) rest).getD rest
        match mark? ';' rest with
        | some rest => statements? fuel rest
        | none => mark? '\x7d' rest

/-- Takes a function behind its keyword. -/
def function? (dialect : Dialect) (cs : List Char) : Option (List Char) := do
  let rest ← mark? '(' (← name? cs)
  let rest ← annotation? dialect (← parameters? dialect (rest.length + 1) rest)
  let rest ← mark? '\x7b' rest
  statements? (rest.length + 1) rest

/-- Takes an interface behind its keyword. -/
def interface? (cs : List Char) : Option (List Char) := do
  let rest ← mark? '\x7b' (← name? cs)
  fields? (rest.length + 1) rest

/-- Takes one declaration, which may be exported. -/
def declaration? (dialect : Dialect) (cs : List Char) : Option (List Char) := do
  let rest := (keyword? "export" cs).getD cs
  match keyword? "function" rest with
  | some rest => function? dialect rest
  | none => if dialect.isTyped then interface? (← keyword? "interface" rest) else none

/-- Whether a text is made of declarations alone. -/
def declarations (dialect : Dialect) : Nat → List Char → Bool
  | 0, _ => false
  | fuel + 1, cs =>
    match skip cs with
    | none => false
    | some [] => true
    | some (c :: rest) =>
      if c = ';' then declarations dialect fuel rest
      else
        match declaration? dialect (c :: rest) with
        | some rest => declarations dialect fuel rest
        | none => false

/-- Whether a source is a module of its dialect. -/
def accepts (dialect : Dialect) (source : String) : Bool :=
  let cs := source.toList
  declarations dialect (cs.length + 1) cs

end Pictogram.Script
