import Rollout.Result

/-!
# Arguments

The words of a command line: options, each with a value, and operands.  An option is written
`--name value`, `--name=value`, or with its letter as `-l value`, `-lvalue` or `-l=value`.  A value
in a word of its own does not begin with a dash, unless it is just one.  After the word `--` all words
are operands.  `--help` and `-h` ask for help where they stand.
-/

namespace Rollout

/-- An option that a command takes. -/
structure OptionSpec where
  name : String
  letter : Option Char := none
  /-- Whether the value is a path, which is never empty. -/
  isPath : Bool := false
  /-- Whether the option may be given more than once. -/
  repeats : Bool := false

/-- Why a command line is not carried out. -/
inductive Refusal where
  /-- The words do not make sense. -/
  | usage
  /-- Help is asked for. -/
  | help
deriving DecidableEq

/-- Values under the names of their options; operands stand under the empty name. -/
abbrev Arguments := List (String × String)

/-- What a word is. -/
inductive Word where
  /-- All further words are operands. -/
  | separator
  | help
  | option (spec : OptionSpec) (value : Option String)
  | unknown
  | operand
deriving Inhabited

namespace Word

/-- An option by its name, with the value that may follow an equals sign. -/
def ofLong (specs : List OptionSpec) (chars : List Char) : Word :=
  let name := String.ofList (chars.takeWhile (· != '='))
  let value := match chars.dropWhile (· != '=') with
    | [] => none
    | _ :: value => some (String.ofList value)
  if name = "help" then if value.isSome then .unknown else .help
  else
    match specs.find? (·.name = name) with
    | some spec => .option spec value
    | none => .unknown

/-- An option by its letter, with the value that may follow at once. -/
def ofShort (specs : List OptionSpec) (letter : Char) (rest : List Char) : Word :=
  if letter = 'h' then .help
  else
    match specs.find? (·.letter = some letter), rest with
    | some spec, [] => .option spec none
    | some spec, '=' :: value => .option spec (some (String.ofList value))
    | some spec, value => .option spec (some (String.ofList value))
    | none, _ => .unknown

/-- What a word is for a command with the given options. -/
def classify (specs : List OptionSpec) (word : String) : Word :=
  match word.toList with
  | ['-', '-'] => .separator
  | '-' :: '-' :: rest => ofLong specs rest
  | '-' :: letter :: rest => ofShort specs letter rest
  | _ => .operand

/-- Whether a word can be the value of the option before it. -/
def isValue (word : String) : Bool :=
  match word.toList with
  | '-' :: _ :: _ => false
  | _ => true

end Word

namespace Arguments

/-- Add the value of an option. -/
def add (spec : OptionSpec) (value : String) (given : Arguments) : Except Refusal Arguments :=
  if (spec.isPath && value.isEmpty) || (!spec.repeats && given.any (·.1 = spec.name)) then
    .error .usage
  else .ok (given ++ [(spec.name, value)])

/-- Read options up to the first operand: the arguments, and the words from the operand on. -/
def readOptions (specs : List OptionSpec) (given : Arguments) :
    List String → Except Refusal (Arguments × List String)
  | [] => .ok (given, [])
  | word :: rest =>
    match Word.classify specs word with
    | .separator => .error .usage
    | .help => .error .help
    | .unknown => .error .usage
    | .operand => .ok (given, word :: rest)
    | .option spec (some value) => do readOptions specs (← add spec value given) rest
    | .option spec none =>
      match rest with
      | [] => .error .usage
      | value :: rest =>
        if Word.isValue value then do readOptions specs (← add spec value given) rest
        else .error .usage

/-- The operand of a command, which is a path and given once. -/
def operand : OptionSpec := { name := "", isPath := true }

/-- Add an operand to the arguments of a command, which takes one or none. -/
def addOperand (takesOperand : Bool) (value : String) (given : Arguments) :
    Except Refusal Arguments :=
  if takesOperand then add operand value given else .error .usage

/-- Read all words of a command. -/
def readAll (specs : List OptionSpec) (takesOperand : Bool) (given : Arguments) :
    List String → Except Refusal Arguments
  | [] => .ok given
  | word :: rest =>
    match Word.classify specs word with
    | .separator => rest.foldlM (fun given word => addOperand takesOperand word given) given
    | .help => .error .help
    | .unknown => .error .usage
    | .operand => do readAll specs takesOperand (← addOperand takesOperand word given) rest
    | .option spec (some value) => do readAll specs takesOperand (← add spec value given) rest
    | .option spec none =>
      match rest with
      | [] => .error .usage
      | value :: rest =>
        if Word.isValue value then do readAll specs takesOperand (← add spec value given) rest
        else .error .usage

/-- The value of an option that must be given. -/
def required (given : Arguments) (name : String) : Except Refusal String :=
  match given.lookup name with
  | some value => .ok value
  | none => .error .usage

/-- All values of an option that may be repeated. -/
def all (given : Arguments) (name : String) : List String :=
  (given.filter (·.1 = name)).map Prod.snd

end Arguments

end Rollout
