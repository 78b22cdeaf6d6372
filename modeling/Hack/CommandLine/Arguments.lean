/-!
Command line arguments. A program knows some options, each with a long name and perhaps a letter;
an option is a flag or takes a value. The forms are `--name`, `--name value`, `--name=value`, `-l`,
`-l value`, `-lvalue` and `-l=value`; letters may be joined, and only the last of them may take a
value. What is no option is a positional argument, and so is everything behind `--`.

No option may be given twice, a flag takes no value, and a value in an argument of its own does not
start with a dash, unless it is only a dash.
-/

namespace Hack.CommandLine

/-- An option that a program knows. -/
structure OptionRule where
  name : String
  letter : Option Char := none
  takesValue : Bool
  deriving DecidableEq, Repr

/-- The arguments of a call, told apart. -/
structure Arguments where
  /-- The options given, by name, each with its value or, for a flag, an empty text. -/
  options : List (String × String) := []
  /-- The other arguments in order. -/
  positionals : List String := []
  deriving DecidableEq, Repr

namespace Arguments

/-- Whether a flag was given. -/
def has (arguments : Arguments) (name : String) : Bool := (arguments.options.lookup name).isSome

/-- The value of an option. -/
def value? (arguments : Arguments) (name : String) : Option String := arguments.options.lookup name

/-- The arguments with one more option, unless it was given before. -/
def addOption (arguments : Arguments) (name value : String) : Option Arguments :=
  if arguments.has name then none
  else some { arguments with options := arguments.options ++ [(name, value)] }

/-- The arguments with one more positional argument. -/
def addPositional (arguments : Arguments) (s : String) : Arguments :=
  { arguments with positionals := arguments.positionals ++ [s] }

end Arguments

/-- Whether an argument looks like an option: a dash with something behind it. -/
def looksLikeOption (s : String) : Bool :=
  match s.toList with
  | '-' :: _ :: _ => true
  | _ => false

/-- A long option without its dashes: its name and the value behind the first `=`. -/
def splitLong : List Char → List Char × Option (List Char)
  | [] => ([], none)
  | c :: rest =>
    if c = '=' then ([], some rest)
    else
      let (name, value) := splitLong rest
      (c :: name, value)

/-- What an argument does: it is complete, or it names an option whose value is to follow. -/
inductive Effect
  | done (arguments : Arguments)
  | awaits (name : String) (arguments : Arguments)

/-- Reads joined letters. -/
def readLetters (rules : List OptionRule) (arguments : Arguments) : List Char → Option Effect
  | [] => some (.done arguments)
  | letter :: rest => do
    let rule ← rules.find? fun rule => rule.letter == some letter
    if rule.takesValue then
      match rest with
      | [] => pure (.awaits rule.name arguments)
      | '=' :: value => pure (.done (← arguments.addOption rule.name (String.ofList value)))
      | value => pure (.done (← arguments.addOption rule.name (String.ofList value)))
    else readLetters rules (← arguments.addOption rule.name "") rest

/-- Reads a long option. -/
def readLong (rules : List OptionRule) (arguments : Arguments) (s : List Char) : Option Effect := do
  let (name, value) := splitLong s
  let rule ← rules.find? fun rule => rule.name == String.ofList name
  match rule.takesValue, value with
  | true, some value => pure (.done (← arguments.addOption rule.name (String.ofList value)))
  | true, none => pure (.awaits rule.name arguments)
  | false, some _ => none
  | false, none => pure (.done (← arguments.addOption rule.name ""))

/-- Reads the remaining arguments; `pending` is the option that waits for its value. -/
def readFrom (rules : List OptionRule) (arguments : Arguments) (pending : Option String) :
    List String → Option Arguments
  | [] => if pending.isNone then some arguments else none
  | s :: rest =>
    match pending with
    | some name =>
      if looksLikeOption s then none
      else
        match arguments.addOption name s with
        | some arguments => readFrom rules arguments none rest
        | none => none
    | none =>
      let effect := match s.toList with
        | '-' :: '-' :: name => readLong rules arguments name
        | '-' :: letter :: letters => readLetters rules arguments (letter :: letters)
        | _ => some (.done (arguments.addPositional s))
      if s = "--" then some (rest.foldl Arguments.addPositional arguments)
      else
        match effect with
        | some (.done arguments) => readFrom rules arguments none rest
        | some (.awaits name arguments) => readFrom rules arguments (some name) rest
        | none => none

/-- The arguments of a call, or nothing if they break a rule; `most` bounds the positional ones. -/
def Arguments.read? (rules : List OptionRule) (most : Option Nat) (arguments : List String) :
    Option Arguments :=
  (readFrom rules {} none arguments).filter fun found =>
    most.all fun limit => found.positionals.length ≤ limit

end Hack.CommandLine
