import Criteria.Config.Decode
import Criteria.Config.Toml.Reader
import Criteria.Config.Yaml.Reader
import Criteria.Json.Reader

/-!
# Loading configurations

A configuration is read from a text in a format, which for a file follows from its extension.
Variables of the environment replace single values before the configuration is checked.
-/

namespace Criteria.Config

/-- Why a configuration was not loaded. -/
inductive LoadError where
  /-- The file cannot be read. -/
  | unreadable (path : String)
  /-- The text is not of the format, or does not describe a configuration. -/
  | malformed (format : Format)
  /-- No format has this extension. -/
  | unsupportedFormat (extension : String)
  /-- A value makes no sense. -/
  | invalid (fault : Fault)
deriving DecidableEq, Repr

/-- The wording of a failure. -/
def LoadError.message : LoadError → String
  | unreadable path => s!"Failed to read config file {path}"
  | malformed .json => "JSON parse error"
  | malformed .toml => "TOML parse error"
  | malformed .yaml => "YAML parse error"
  | unsupportedFormat extension => s!"Unsupported config format: {extension}"
  | invalid fault => s!"Invalid configuration value for {fault.path}: {fault.problem}"

/-! ### Formats -/

/-- The name of the file that a path leads to; none if the path ends in the parent directory. -/
def fileName? (path : String) : Option (List Char) :=
  let names := (Text.split '/' path.toList).filter fun name => name ≠ [] && name ≠ ['.']
  names.getLast?.filter (· ≠ ['.', '.'])

/-- What follows the last point of a name, unless nothing precedes that point. -/
def extension (name : List Char) : List Char :=
  let behind := name.reverse.takeWhile (· ≠ '.')
  if behind.length + 1 < name.length then behind.reverse else []

/-- The format of a file, by the extension of its name in any letter case. -/
def Format.ofPath (path : String) : Except LoadError Format :=
  match Text.lower (String.ofList ((fileName? path).elim [] extension)) with
  | "toml" => .ok .toml
  | "yaml" | "yml" => .ok .yaml
  | "json" => .ok .json
  | other => .error (.unsupportedFormat other)

/-! ### Texts -/

/-- How JSON is read: to any depth, with every mention of a key, and with a number that no section
has in place of what is unreadable, so that it does no harm where nothing is looked for. -/
def jsonOptions (text : String) : Json.ReaderOptions :=
  { maxDepth := text.length
    repeats := .keep
    substitute := some (.number (.double (.zero false))) }

/-- The document of a text. -/
def Format.read? (format : Format) (text : String) : Option Document :=
  match format with
  | .json => (Json.read? (jsonOptions text) text).map .ofJson
  | .toml => Toml.read? text
  | .yaml => Yaml.read? outline text

/-- The configuration that a text describes. -/
def read (format : Format) (text : String) : Except LoadError Config :=
  match (format.read? text).bind (decode format) with
  | some config => .ok config
  | none => .error (.malformed format)

/-- A configuration without faults. -/
def checked (config : Config) : Except LoadError Config :=
  match config.validate with
  | .ok () => .ok config
  | .error fault => .error (.invalid fault)

/-- The configuration that a text describes, which must be without faults. -/
def load (format : Format) (text : String) : Except LoadError Config := do
  (← read format text).checked

/-! ### The environment -/

/-- The variable for the name of the adapter. -/
def adapterVariable : String := "SIEVE_ADAPTER"

/-- The variable for the storage backend. -/
def backendVariable : String := "SIEVE_BACKEND"

/-- The variable for the log level. -/
def levelVariable : String := "SIEVE_LOG_LEVEL"

/-- A configuration with the values of those variables that are set and not empty. -/
def override (config : Config) (environment : String → Option String) : Config :=
  let setting? (name : String) : Option String := (environment name).filter (· ≠ "")
  { config with
    adapter := {
      name := setting? adapterVariable <|> config.adapter.name
      backend := setting? backendVariable <|> config.adapter.backend }
    logging := { level := (setting? levelVariable).getD config.logging.level } }

/-- The configuration in a file, under the variables of the environment. The contents of the file
are those found under its path, if it can be read. -/
def loadFile (environment : String → Option String) (path : String) (contents : Option String) :
    Except LoadError Config := do
  let format ← Format.ofPath path
  match contents with
  | none => .error (.unreadable path)
  | some text => ((← read format text).override environment).checked

end Criteria.Config
