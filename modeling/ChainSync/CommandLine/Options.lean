/-!
# Options

Reading the arguments of a command.

An option's value is the next argument, or stands behind an equals sign; for
the one-letter form it may also stand right behind the letter. An argument
that begins with a dash is an option, unless it is a number and the option
before it takes negative numbers. After two dashes alone nothing is an option
any more. Only an option that repeats may be given twice.

## Main definitions

* `OptionSpec`, `CommandSpec`: What a command takes.
* `Parsed`: What it was given.
* `CommandSpec.read`: The arguments of a command.
-/

namespace ChainSync.CommandLine

/-- An option with a value. -/
structure OptionSpec where
  long : String
  short : Option Char := none
  repeats : Bool := false
  /-- Whether a negative number may be the next argument. -/
  takesNegative : Bool := false
  /-- Which values are taken. -/
  accepts : String → Bool := fun _ => true

/-- What a command takes. -/
structure CommandSpec where
  options : List OptionSpec
  /-- The number of arguments that are no options. -/
  places : Nat := 0

/-- What a command was given, in that order. -/
structure Parsed where
  values : List (String × String) := []
  arguments : List String := []
deriving DecidableEq

namespace Parsed

/-- The value of an option that does not repeat. -/
def value? (p : Parsed) (long : String) : Option String := p.values.lookup long

/-- Whether an option was given. -/
def has (p : Parsed) (long : String) : Bool := (p.value? long).isSome

/-- All values of an option. -/
def all (p : Parsed) (long : String) : List String :=
  (p.values.filter (·.1 = long)).map (·.2)

end Parsed

/-- Why reading stops early. -/
inductive Stop where
  /-- The arguments cannot be used. -/
  | misuse
  /-- Help was asked for. -/
  | help
deriving DecidableEq

/-- How far the reading has come: whether a value is due, and whether options
    are over. -/
structure Reading where
  parsed : Parsed := {}
  due : Option OptionSpec := none
  optionsOver : Bool := false

namespace Reading

/-- Keeps the value of an option. -/
def store (r : Reading) (o : OptionSpec) (value : String) : Except Stop Reading :=
  if (!o.repeats && r.parsed.has o.long) || !o.accepts value then .error .misuse
  else .ok { r with
    parsed := { r.parsed with values := r.parsed.values ++ [(o.long, value)] }
    due := none }

/-- Refuses to go on while a value is due. -/
def settled (r : Reading) : Except Stop Reading :=
  if r.due.isSome then .error .misuse else .ok r

/-- Takes an option, with its value if that is known already. -/
def takeOption (r : Reading) (o : OptionSpec) (value : Option String) : Except Stop Reading := do
  let r ← r.settled
  match value with
  | some v => r.store o v
  | none => return { r with due := some o }

/-- Takes an argument that is no option. -/
def takeArgument (r : Reading) (places : Nat) (arg : String) : Except Stop Reading := do
  let r ← r.settled
  if r.parsed.arguments.length < places then
    return { r with parsed := { r.parsed with arguments := r.parsed.arguments ++ [arg] } }
  else .error .misuse

end Reading

/-- Whether the text behind a dash makes a negative number: digits with a point
    after the first and an exponent without sign. -/
def isNumber (cs : List Char) : Bool :=
  let isDigit (c : Char) : Bool := '0' ≤ c && c ≤ '9'
  let isExponent (c : Char) : Bool := c = 'e' || c = 'E'
  let mantissa := cs.takeWhile fun c => !isExponent c
  let exponent := cs.dropWhile fun c => !isExponent c
  (mantissa.head?.map isDigit).getD cs.isEmpty
    && mantissa.all (fun c => isDigit c || c = '.') && mantissa.count '.' ≤ 1
    && (exponent.isEmpty || (2 ≤ exponent.length && exponent.tail.all isDigit))

namespace CommandSpec

/-- Takes an argument that begins with two dashes. -/
def readLong (spec : CommandSpec) (r : Reading) (body : List Char) : Except Stop Reading := do
  let name := String.ofList (body.takeWhile (· ≠ '='))
  let value := match body.dropWhile (· ≠ '=') with
    | [] => none
    | _ :: cs => some (String.ofList cs)
  match spec.options.find? (·.long = name) with
  | some o => r.takeOption o value
  | none =>
    let _ ← r.settled
    if name = "help" && value.isNone then .error .help else .error .misuse

/-- Takes an argument that begins with one dash. -/
def readShort (spec : CommandSpec) (r : Reading) (letter : Char) (rest : List Char) :
    Except Stop Reading := do
  match spec.options.find? (·.short = some letter) with
  | some o => match rest with
    | [] => r.takeOption o none
    | '=' :: cs => r.takeOption o (some (String.ofList cs))
    | cs => r.takeOption o (some (String.ofList cs))
  | none =>
    let _ ← r.settled
    if letter = 'h' then .error .help else .error .misuse

/-- Takes an argument that is no option, or the value that is due. -/
def readPlain (spec : CommandSpec) (r : Reading) (arg : String) : Except Stop Reading :=
  match r.due with
  | some o => r.store o arg
  | none => r.takeArgument spec.places arg

/-- Takes the next argument. -/
def step (spec : CommandSpec) (r : Reading) (arg : String) : Except Stop Reading :=
  if r.optionsOver then r.takeArgument spec.places arg
  else match arg.toList with
    | ['-', '-'] => .ok { r with optionsOver := true }
    | '-' :: '-' :: body => spec.readLong r body
    | '-' :: letter :: rest =>
      if (r.due.map (·.takesNegative)).getD false && isNumber (letter :: rest) then
        spec.readPlain r arg
      else spec.readShort r letter rest
    | _ => spec.readPlain r arg

/-- Reads all arguments of a command. -/
def read (spec : CommandSpec) (args : List String) : Except Stop Parsed := do
  let r ← (← args.foldlM spec.step {}).settled
  return r.parsed

end CommandSpec

end ChainSync.CommandLine
