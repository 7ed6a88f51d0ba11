/-!
# Command-line arguments

Options are read from left to right, and the first thing that is wrong, or the
first request for help or for the version, decides. A long option takes its
value from after an equals sign or from the next word, the short one from the
rest of its word or from the next one; a word that starts with a hyphen is no
value, unless it is a hyphen and nothing else. No option may be given twice,
and there is nothing but options.
-/

namespace MediaSeal

/-- What a run was asked to do differently. -/
structure Arguments where
  /-- The scenario file. -/
  config : Option String
  frames : Option UInt32
  workers : Option Nat
  ratchetEvery : Option UInt32
  algorithm : Option String
  seed : Option UInt64
  /-- What to log. -/
  logLevel : Option String
deriving DecidableEq, Repr

/-- What the command line asks for. -/
inductive Request
  | run (arguments : Arguments)
  | help
  | version
deriving DecidableEq, Repr

/-- Why a command line is refused. -/
inductive UsageError
  | unknownOption (word : String)
  | unexpected (word : String)
  | missingValue (name : String)
  | unneededValue (name : String)
  | repeated (name : String)
  | badValue (name value : String)
deriving DecidableEq, Repr

/-- The reason in words. -/
def UsageError.message : UsageError → String
  | unknownOption word | unexpected word => s!"unexpected argument '{word}' found"
  | missingValue name => s!"a value is required for '{name}' but none was supplied"
  | unneededValue name => s!"unexpected value for '{name}' found"
  | repeated name => s!"the argument '{name}' cannot be used multiple times"
  | badValue name value => s!"invalid value '{value}' for '{name}'"

/-- The options that take a value. -/
inductive ValueOption
  | config
  | frames
  | workers
  | ratchetEvery
  | algorithm
  | seed
  | logLevel
deriving DecidableEq, Repr

namespace ValueOption

/-- The option's long name. -/
def name : ValueOption → String
  | config => "config"
  | frames => "frames"
  | workers => "workers"
  | ratchetEvery => "ratchet-every"
  | algorithm => "algorithm"
  | seed => "seed"
  | logLevel => "log-level"

/-- Every such option. -/
def all : List ValueOption := [config, frames, workers, ratchetEvery, algorithm, seed, logLevel]

/-- The option of a long name. -/
def ofName? (name : String) : Option ValueOption := all.find? (·.name == name)

end ValueOption

namespace Arguments

/-- A run as it is by default. -/
def none : Arguments :=
  ⟨Option.none, Option.none, Option.none, Option.none, Option.none, Option.none, Option.none⟩

/-! ## Values -/

/-- A number without a sign. -/
def digits? (s : List Char) : Option Nat :=
  if s.isEmpty ∨ ¬s.all Char.isDigit then Option.none
  else some (s.foldl (fun sum c => 10 * sum + (c.toNat - '0'.toNat)) 0)

/-- A number that may have a plus sign, below a bound. -/
def natBelow? (bound : Nat) (value : String) : Option Nat :=
  let digits := match value.toList with
    | '+' :: digits => digits
    | digits => digits
  (digits? digits).bind fun n => if n < bound then some n else Option.none

/-- A number of thirty-two bits; it may have either sign, so that zero may be
negative. -/
def word32? (value : String) : Option UInt32 :=
  match value.toList with
  | '-' :: digits => if digits? digits = some 0 then some 0 else Option.none
  | _ => (natBelow? UInt32.size value).map UInt32.ofNat

/-- Whether an option was given already. -/
def has (arguments : Arguments) : ValueOption → Bool
  | .config => arguments.config.isSome
  | .frames => arguments.frames.isSome
  | .workers => arguments.workers.isSome
  | .ratchetEvery => arguments.ratchetEvery.isSome
  | .algorithm => arguments.algorithm.isSome
  | .seed => arguments.seed.isSome
  | .logLevel => arguments.logLevel.isSome

/-- An option given a value, if the option can take it. -/
def assign? (arguments : Arguments) (option : ValueOption) (value : String) : Option Arguments :=
  match option with
  | .config => if value.isEmpty then Option.none else some { arguments with config := value }
  | .frames => (word32? value).map ({ arguments with frames := · })
  | .workers => (natBelow? UInt64.size value).map ({ arguments with workers := · })
  | .ratchetEvery => (word32? value).map ({ arguments with ratchetEvery := · })
  | .algorithm => some { arguments with algorithm := value }
  | .seed => (natBelow? UInt64.size value).map ({ arguments with seed := UInt64.ofNat · })
  | .logLevel => some { arguments with logLevel := value }

/-- An option given a value, if it has none yet and can take this one. -/
def assign (arguments : Arguments) (option : ValueOption) (value : String) :
    Except UsageError Arguments :=
  if arguments.has option then .error (.repeated option.name)
  else match arguments.assign? option value with
    | some arguments => .ok arguments
    | Option.none => .error (.badValue option.name value)

/-! ## Words -/

/-- What one word, without the values that it may take from the next, asks for. -/
inductive Word
  | help
  | version
  /-- An option with its value. -/
  | assigned (option : ValueOption) (value : String)
  /-- An option whose value is the next word. -/
  | awaiting (option : ValueOption)
  /-- The end of the options. -/
  | endOfOptions
  | wrong (error : UsageError)
deriving DecidableEq, Repr

/-- A word that starts with two hyphens, without them. -/
def long (word : String) (s : List Char) : Word :=
  let name := String.ofList (s.takeWhile (· != '='))
  let value := match s.dropWhile (· != '=') with
    | _ :: value => some (String.ofList value)
    | [] => Option.none
  match ValueOption.ofName? name, value with
  | some option, some value => .assigned option value
  | some option, Option.none => .awaiting option
  | Option.none, value =>
    if name = "help" ∨ name = "version" then
      if value.isSome then .wrong (.unneededValue name)
      else if name = "help" then .help
      else .version
    else .wrong (.unknownOption word)

/-- A word that starts with one hyphen, without it. Flags that ask for
something are answered before what follows them is looked at. -/
def short (word : String) : List Char → Word
  | 'h' :: _ => .help
  | 'V' :: _ => .version
  | ['c'] => .awaiting .config
  | 'c' :: '=' :: value => .assigned .config (String.ofList value)
  | 'c' :: value => .assigned .config (String.ofList value)
  | _ => .wrong (.unknownOption word)

/-- What a word asks for. -/
def word (text : String) : Word :=
  match text.toList with
  | ['-'] => .wrong (.unexpected text)
  | ['-', '-'] => .endOfOptions
  | '-' :: '-' :: rest => long text rest
  | '-' :: rest => short text rest
  | _ => .wrong (.unexpected text)

/-- Whether a word can be the value of the option before it. -/
def isValue (text : String) : Bool :=
  match text.toList with
  | '-' :: _ :: _ => false
  | _ => true

/-! ## The command line -/

/-- What the words ask for, given what was asked for before them. -/
def parseFrom (arguments : Arguments) : List String → Except UsageError Request
  | [] => .ok (.run arguments)
  | text :: rest =>
    match word text with
    | .help => .ok .help
    | .version => .ok .version
    | .wrong error => .error error
    | .endOfOptions =>
      match rest with
      | [] => .ok (.run arguments)
      | next :: _ => .error (.unexpected next)
    | .assigned option value =>
      match arguments.assign option value with
      | .ok arguments => parseFrom arguments rest
      | .error error => .error error
    | .awaiting option =>
      match rest with
      | [] => .error (.missingValue option.name)
      | value :: rest =>
        if isValue value then
          match arguments.assign option value with
          | .ok arguments => parseFrom arguments rest
          | .error error => .error error
        else .error (.missingValue option.name)

/-- What a command line asks for. -/
def parse (words : List String) : Except UsageError Request := none.parseFrom words

end Arguments

end MediaSeal
