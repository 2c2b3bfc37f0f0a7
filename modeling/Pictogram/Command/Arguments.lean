/-!
The arguments of a command line, by the options that a command knows: long options with their value
behind an equals sign or in the next argument, short ones that may be written together, and a double
hyphen behind which nothing is an option.
-/

namespace Pictogram

/-- Why a command line cannot be followed. -/
inductive UsageError where
  | unknownOption (text : String)
  | unknownCommand (name : String)
  | unexpectedArgument (text : String)
  | unexpectedValue (option : String)
  | missingValue (option : String)
  | repeated (option : String)
  | badValue (option value : String)
  | missingArgument (name : String)
  | missingCommand
  deriving DecidableEq, Repr

/-- The wording of an error. -/
def UsageError.message : UsageError → String
  | unknownOption text => "unexpected argument '" ++ text ++ "' found"
  | unknownCommand name => "unrecognized subcommand '" ++ name ++ "'"
  | unexpectedArgument text => "unexpected argument '" ++ text ++ "' found"
  | unexpectedValue option => "unexpected value for '--" ++ option ++ "'"
  | missingValue option => "a value is required for '--" ++ option ++ "'"
  | repeated option => "the argument '--" ++ option ++ "' cannot be used multiple times"
  | badValue option value => "invalid value '" ++ value ++ "' for '--" ++ option ++ "'"
  | missingArgument name => "the required argument <" ++ name ++ "> was not provided"
  | missingCommand => "a subcommand is required"

/-- An option that a command knows. -/
structure OptionSpec where
  name : String
  short? : Option Char := none
  takesValue : Bool := false
  /-- Whether nothing behind the option matters. -/
  isFinal : Bool := false
  deriving DecidableEq, Repr

/-- What a command knows. -/
structure CommandSpec where
  options : List OptionSpec
  /-- Whether the first argument that is no option ends the arguments of the command and begins
  those of another. -/
  endsAtWord : Bool := false

/-- What was given to a command. -/
structure Arguments where
  values : List (String × String) := []
  flags : List String := []
  words : List String := []
  /-- The final option, if one was given. -/
  final? : Option String := none
  /-- The argument that begins another command, and those behind it. -/
  rest? : Option (String × List String) := none
  deriving DecidableEq, Repr

namespace Arguments

/-- Adds an option without a value. -/
def addFlag (given : Arguments) (spec : OptionSpec) : Except UsageError Arguments :=
  if given.flags.contains spec.name then .error (.repeated spec.name)
  else .ok { given with
    flags := given.flags ++ [spec.name]
    final? := if spec.isFinal then some spec.name else given.final? }

/-- Adds an option with its value. -/
def addValue (given : Arguments) (spec : OptionSpec) (value : String) :
    Except UsageError Arguments :=
  if (given.values.lookup spec.name).isSome then .error (.repeated spec.name)
  else .ok { given with values := given.values ++ [(spec.name, value)] }

/-- Adds the options of an argument of short options. If the last of them waits for its value, it is
part of the answer. -/
def addShort (command : CommandSpec) (given : Arguments) :
    List Char → Except UsageError (Arguments × Option OptionSpec)
  | [] => .ok (given, none)
  | c :: cs =>
    match command.options.find? (·.short? = some c) with
    | none => .error (.unknownOption (.ofList ['-', c]))
    | some spec =>
      if spec.takesValue then
        match cs with
        | [] => .ok (given, some spec)
        | '=' :: value => (given.addValue spec (.ofList value)).map (·, none)
        | value => (given.addValue spec (.ofList value)).map (·, none)
      else
        match given.addFlag spec with
        | .error e => .error e
        | .ok next => if spec.isFinal then .ok (next, none) else addShort command next cs

/-- Adds a long option, from the text behind its hyphens. If it waits for its value, it is part of
the answer. -/
def addLong (command : CommandSpec) (given : Arguments) (cs : List Char) :
    Except UsageError (Arguments × Option OptionSpec) :=
  let name := String.ofList (cs.takeWhile (· != '='))
  match command.options.find? (·.name = name) with
  | none => .error (.unknownOption ("--" ++ name))
  | some spec =>
    match cs.dropWhile (· != '='), spec.takesValue with
    | [], true => .ok (given, some spec)
    | [], false => (given.addFlag spec).map (·, none)
    | _ :: value, true => (given.addValue spec (.ofList value)).map (·, none)
    | _ :: _, false => .error (.unexpectedValue name)

/-- Whether an argument looks like an option. A single hyphen does not. -/
def looksLikeOption (arg : String) : Bool :=
  match arg.toList with
  | '-' :: _ :: _ => true
  | _ => false

/-- Adds arguments in order. -/
def add (command : CommandSpec) (given : Arguments) :
    List String → Except UsageError Arguments
  | [] => .ok given
  | arg :: args =>
    let added := match arg.toList with
      | '-' :: '-' :: c :: cs => some (addLong command given (c :: cs))
      | ['-', '-'] => none
      | '-' :: c :: cs => some (addShort command given (c :: cs))
      | _ => none
    match added with
    | some (.error e) => .error e
    | some (.ok (next, none)) => if next.final?.isSome then .ok next else add command next args
    | some (.ok (next, some spec)) =>
      match args with
      | [] => .error (.missingValue spec.name)
      | value :: args =>
        if looksLikeOption value then .error (.missingValue spec.name)
        else
          match next.addValue spec value with
          | .error e => .error e
          | .ok next => add command next args
    | none =>
      if arg = "--" then
        if command.endsAtWord then
          match args with
          | [] => .ok given
          | word :: _ => .error (.unexpectedArgument word)
        else .ok { given with words := given.words ++ args }
      else if command.endsAtWord then .ok { given with rest? := some (arg, args) }
      else add command { given with words := given.words ++ [arg] } args

/-- Reads the arguments of a command. -/
def read (command : CommandSpec) (args : List String) : Except UsageError Arguments :=
  add command {} args

/-- Whether an option was given. -/
def has (given : Arguments) (name : String) : Bool :=
  given.flags.contains name

/-- The value of an option, read by a reader that may refuse it. -/
def value? {α : Type} (given : Arguments) (name : String) (read? : String → Option α) :
    Except UsageError (Option α) :=
  match given.values.lookup name with
  | none => .ok none
  | some text =>
    match read? text with
    | some a => .ok (some a)
    | none => .error (.badValue name text)

/-- The only word that was given. -/
def onlyWord (given : Arguments) (name : String) : Except UsageError String :=
  match given.words with
  | [] => .error (.missingArgument name)
  | [word] => .ok word
  | _ :: word :: _ => .error (.unexpectedArgument word)

/-- Refuses words where none are expected. -/
def noWords (given : Arguments) : Except UsageError Unit :=
  match given.words with
  | [] => .ok ()
  | word :: _ => .error (.unexpectedArgument word)

end Arguments

end Pictogram
