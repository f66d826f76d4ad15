import Criteria.LogLevel

/-!
# Arguments of the command line

The arguments name a command and give options to it. Options have a long form, `--adapter`, and a
short one, `-a`; the value of an option is attached to it or is the next argument. Some options
may stand before the command as well as behind it, and behind it they count first. An option must
not be given twice on one side of the command, unless it collects values.

`Invocation.parse` reads the arguments. Where they start no command, a `Stop` says why.

Arguments are read from left to right. A value that is an argument of its own is only checked when
the next option is met, or at the end; what is unknown is refused at once.
-/

namespace Criteria.CommandLine

/-- Why arguments start no command. -/
inductive Stop where
  /-- Help was asked for. -/
  | help
  /-- The version was asked for. -/
  | version
  /-- There are no arguments at all. -/
  | noArguments
  /-- There are options, but no command. -/
  | missingCommand
  /-- No command has this name. -/
  | unknownCommand
  /-- An argument that is neither an option nor the value of one. -/
  | unknownArgument
  /-- An option that the command needs is missing. -/
  | missingOption
  /-- An option lacks its value, or has one that it does not accept. -/
  | invalidValue
  /-- An option was given twice. -/
  | repeatedOption
  /-- An option without values was given one. -/
  | surplusValue
deriving DecidableEq, Repr

/-- The wording of a stop. -/
def Stop.message : Stop → String
  | help | noArguments => "usage: sieve [options] compile|discover|operators|inputs [options]"
  | version => "sieve"
  | missingCommand => "a command is required"
  | unknownCommand => "unrecognized command"
  | unknownArgument => "unexpected argument"
  | missingOption => "a required option is missing"
  | invalidValue => "an option has no value or an invalid one"
  | repeatedOption => "an option was given more than once"
  | surplusValue => "an option was given a value that takes none"

/-! ### Options -/

/-- The options. -/
inductive OptionName where
  | config
  | adapter
  | logLevel
  | verbose
  | help
  | version
  | type
  | filter
  | order
  | root
  | kind
deriving DecidableEq, Repr

namespace OptionName

/-- The long form, without its hyphens. -/
def long : OptionName → String
  | config => "config"
  | adapter => "adapter"
  | logLevel => "log-level"
  | verbose => "verbose"
  | help => "help"
  | version => "version"
  | type => "type"
  | filter => "filter"
  | order => "order"
  | root => "root"
  | kind => "kind"

/-- The short form, without its hyphen. -/
def letter : OptionName → Char
  | config => 'C'
  | adapter => 'a'
  | logLevel => 'l'
  | verbose => 'v'
  | help => 'h'
  | version => 'V'
  | type => 't'
  | filter => 'f'
  | order => 'o'
  | root => 'r'
  | kind => 'k'

/-- Whether an option has a value. -/
def takesValue : OptionName → Bool
  | verbose | help | version => false
  | _ => true

/-- Whether an option collects values. -/
def repeats : OptionName → Bool
  | root => true
  | _ => false

/-- Whether an option accepts a value. -/
def accepts : OptionName → String → Bool
  | config, value => value ≠ ""
  | logLevel, value => (LogLevel.ofWord? value).isSome
  | _, _ => true

/-- The options that may stand on both sides of the command. -/
def global : List OptionName := [config, adapter, logLevel, verbose, help]

end OptionName

/-! ### Commands -/

/-- The names of the commands. -/
inductive CommandName where
  | compile
  | discover
  | operators
  | inputs
deriving DecidableEq, Repr

namespace CommandName

/-- The command with a name. -/
def ofWord? : String → Option CommandName
  | "compile" => some compile
  | "discover" => some discover
  | "operators" => some operators
  | "inputs" => some inputs
  | _ => none

/-- The options of a command alone. -/
def options : CommandName → List OptionName
  | compile => [.type, .filter, .order]
  | discover | inputs => [.root]
  | operators => [.kind]

end CommandName

/-- Whether a word names a command; `help` is one too. -/
def isCommandWord (word : String) : Bool := word = "help" || (CommandName.ofWord? word).isSome

/-- A command with its options. -/
inductive Command where
  /-- Compiles a filter, and an ordering if there is one, for an entity. -/
  | compile (entity filter : String) (order : Option String)
  /-- Lists the types reached from roots. -/
  | discover (roots : List String)
  /-- Lists the operators of a kind, or of all kinds. -/
  | operators (kind : Option String)
  /-- Generates the inputs of the entities reached from roots. -/
  | inputs (roots : List String)
deriving DecidableEq, Repr

/-! ### One side of the command -/

/-- A side of the command: before it, or behind it. -/
inductive Side where
  | before
  | behind (command : CommandName)
deriving DecidableEq, Repr

/-- The options that may stand on a side. -/
def Side.options : Side → List OptionName
  | before => OptionName.global ++ [.version]
  | behind command => command.options ++ OptionName.global

/-- Why a word on a side is refused that is no option and no value of one. Two hyphens may stand
before it, which keep it from being a command. -/
def Side.refusal (side : Side) (word : String) (behindHyphens : Bool) : Stop :=
  match side with
  | before => if behindHyphens && isCommandWord word then .unknownArgument else .unknownCommand
  | behind _ => .unknownArgument

/-- The options given on a side so far. -/
structure Given where
  /-- The options that were checked, with their values; those without have an empty one. -/
  values : List (OptionName × String) := []
  /-- The option that is still to be checked, and its value once there is one. -/
  pending : Option (OptionName × Option String) := none
deriving DecidableEq, Repr

namespace Given

/-- The values given for an option. -/
def all (given : Given) (option : OptionName) : List String :=
  (given.values.filter fun entry => entry.1 = option).map Prod.snd

/-- The value given for an option. -/
def value? (given : Given) (option : OptionName) : Option String := (given.all option).head?

/-- Whether an option was given. -/
def has (given : Given) (option : OptionName) : Bool := !(given.all option).isEmpty

/-- Adds an option with its value, which are checked. -/
def add (given : Given) (option : OptionName) (value : String) : Except Stop Given :=
  if !option.repeats && given.has option then .error .repeatedOption
  else if option.accepts value then .ok { given with values := given.values ++ [(option, value)] }
  else .error .invalidValue

/-- Checks the option that is still to be checked. -/
def settle (given : Given) : Except Stop Given :=
  match given.pending with
  | none => .ok given
  | some (_, none) => .error .invalidValue
  | some (option, some value) => { given with pending := none }.add option value

/-- Adds an option that has no value. -/
def addFlag (given : Given) (option : OptionName) : Except Stop Given := do
  let given ← given.settle
  match option with
  | .help => .error .help
  | .version => .error .version
  | _ => given.add option ""

/-- Adds an option with an attached value, or waits for its value. -/
def addOption (given : Given) (option : OptionName) (attached : Option String) :
    Except Stop Given := do
  let given ← given.settle
  match attached with
  | some value => given.add option value
  | none => return { given with pending := some (option, none) }

/-- Whether the last option still waits for its value. -/
def awaitsValue (given : Given) : Bool :=
  match given.pending with
  | some (_, none) => true
  | _ => false

end Given

/-- Reads the long form of an option, which may have an attached value. -/
def readLong (side : Side) (given : Given) (name : String) (attached : Option String) :
    Except Stop Given :=
  match side.options.find? fun option => option.long = name with
  | none => .error .unknownArgument
  | some option =>
    if option.takesValue then given.addOption option attached
    else if attached.isSome then .error .surplusValue
    else given.addFlag option

/-- Reads short forms of options. Behind one that takes a value the rest is the value, where an
equals sign may come first. -/
def readShort (side : Side) (given : Given) : List Char → Except Stop Given
  | [] => .ok given
  | c :: rest =>
    match side.options.find? fun option => option.letter = c with
    | none => .error .unknownArgument
    | some option =>
      if option.takesValue then
        given.addOption option <|
          match rest with
          | [] => none
          | '=' :: value => some (String.ofList value)
          | value => some (String.ofList value)
      else do readShort side (← given.addFlag option) rest

/-- The forms of an argument. -/
inductive Form where
  /-- The long form of an option. -/
  | long (name : String) (attached : Option String)
  /-- Short forms of options. -/
  | short (letters : List Char)
  /-- Anything else. -/
  | word

/-- The form of an argument. A single hyphen is a word. -/
def Form.ofArgument (argument : String) : Form :=
  match argument.toList with
  | '-' :: '-' :: rest =>
    .long (String.ofList (rest.takeWhile (· ≠ '='))) <|
      match rest.dropWhile (· ≠ '=') with
      | [] => none
      | _ :: value => some (String.ofList value)
  | '-' :: c :: rest => .short (c :: rest)
  | _ => .word

/-- What `help` leads to, given the words behind it: at most the name of one command. -/
def helpOn : List String → Stop
  | [] => .help
  | [word] => if isCommandWord word then .help else .unknownCommand
  | _ => .unknownCommand

/-- Reads the arguments of a side, up to the command that ends it, of which the result has the name
and the arguments behind it. -/
def readSide (side : Side) (given : Given) :
    List String → Except Stop (Given × Option (CommandName × List String))
  | [] => .ok (given, none)
  | argument :: rest =>
    if side = .before && !given.awaitsValue && isCommandWord argument then
      match CommandName.ofWord? argument with
      | some command => .ok (given, some (command, rest))
      | none => .error (helpOn rest)
    else if argument = "--" then
      match rest with
      | [] => .ok (given, none)
      | word :: _ => .error (side.refusal word true)
    else
      match Form.ofArgument argument with
      | .long name attached => do readSide side (← readLong side given name attached) rest
      | .short letters => do readSide side (← readShort side given letters) rest
      | .word =>
        match given.pending with
        | some (option, none) =>
          readSide side { given with pending := some (option, some argument) } rest
        | _ => .error (side.refusal argument false)

/-! ### The whole line -/

/-- A command with the options that all commands have. -/
structure Invocation where
  /-- The path of the configuration. -/
  config : Option String
  /-- The adapter, in place of the configured one. -/
  adapter : Option String
  /-- The log level, in place of the configured one. -/
  logLevel : Option LogLevel
  /-- Whether output is verbose. -/
  verbose : Bool
  /-- The command. -/
  command : Command
deriving DecidableEq, Repr

/-- The variable of the environment for the path of the configuration. -/
def configVariable : String := "SIEVE_CONFIG"

/-- Checks all options of a side. The variable for the configuration is checked where the option
is not given. -/
def Given.finish (given : Given) (configured : Option String) : Except Stop Given := do
  let given ← given.settle
  if !given.has .config && configured = some "" then .error .invalidValue else return given

/-- The command with the options given behind it. -/
def CommandName.withOptions (command : CommandName) (given : Given) : Except Stop Command :=
  match command with
  | compile =>
    match given.value? .type, given.value? .filter with
    | some entity, some filter => .ok (.compile entity filter (given.value? .order))
    | _, _ => .error .missingOption
  | discover => .ok (.discover (given.all .root))
  | operators => .ok (.operators (given.value? .kind))
  | inputs => .ok (.inputs (given.all .root))

/-- Reads the arguments. The variable for the configuration stands in for a missing option. -/
def Invocation.parse (configured : Option String) (arguments : List String) :
    Except Stop Invocation := do
  let (before, call) ← readSide .before {} arguments
  match call with
  | none =>
    let before ← before.finish configured
    .error (if before.values.isEmpty && configured.isNone then .noArguments else .missingCommand)
  | some (name, rest) =>
    let (behind, _) ← readSide (.behind name) {} rest
    let behind ← behind.finish configured
    let command ← name.withOptions behind
    let before ← before.finish configured
    let value? (option : OptionName) : Option String :=
      behind.value? option <|> before.value? option
    return {
      config := value? .config <|> configured
      adapter := value? .adapter
      logLevel := (value? .logLevel).bind LogLevel.ofWord?
      verbose := behind.has .verbose || before.has .verbose
      command }

end Criteria.CommandLine
