import Criteria.Text.Blank
import Criteria.Text.Digit

/-!
# Log levels

How much is logged. A level on the command line counts first, then the switch for verbose output,
then the configuration, where a level is a word in any letter case or a number. What is no level
there means warnings.
-/

namespace Criteria

/-- The least severe messages that are shown. -/
inductive LogLevel where
  | off
  | error
  | warn
  | info
  | debug
  | trace
deriving DecidableEq, Repr

namespace LogLevel

/-- All levels, from the most silent one. -/
def all : List LogLevel := [off, error, warn, info, debug, trace]

/-- The word for a level. -/
def word : LogLevel → String
  | off => "off"
  | error => "error"
  | warn => "warn"
  | info => "info"
  | debug => "debug"
  | trace => "trace"

/-- The level with a word, in lower case. -/
def ofWord? (word : String) : Option LogLevel := all.find? fun level => level.word == word

/-- The level with a number, which may have a plus sign. -/
def ofNumber? (chars : List Char) : Option LogLevel :=
  let digits :=
    match chars with
    | '+' :: rest => rest
    | _ => chars
  (Text.natural? 10 digits).bind fun n => all[n]?

/-- The level that a configuration names. No text at all means errors. -/
def ofText? (text : String) : Option LogLevel :=
  if text = "" then some error else ofNumber? text.toList <|> ofWord? (Text.lower text)

/-- The level that counts. -/
def resolve (explicit : Option LogLevel) (verbose : Bool) (configured : String) : LogLevel :=
  explicit.getD (if verbose then debug else (ofText? configured).getD warn)

/-- The parts of the program whose messages are shown. -/
def targets : List String := ["sieve_cli", "sieve_config", "sieve_query", "sieve_discovery"]

/-- The directive that shows the messages of all parts at a level. -/
def directive (level : LogLevel) : String :=
  ",".intercalate (targets.map fun target => target ++ "=" ++ level.word)

end LogLevel

end Criteria
