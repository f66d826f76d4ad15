import Criteria.CommandLine.Arguments
import Criteria.Config.Load
import Criteria.Engine
import Criteria.Inputs
import Criteria.Json.Reader
import Criteria.Json.Writer
import Criteria.TypeGraph.Discovery

/-!
# Commands

What each command prints. Commands see files through a function from paths to contents, and the
environment through one from names to values, so running a command is a computation without
effects.

A filter or an ordering on the command line is JSON, or `@` and the path of a file that holds it.
-/

namespace Criteria.CommandLine

/-- Why a command printed nothing. -/
inductive Failure where
  /-- The arguments start no command. -/
  | usage (stop : Stop)
  /-- The configuration was not loaded. -/
  | config (path : String) (error : Config.LoadError)
  /-- The declarations of the configuration make no sense. -/
  | declaration (error : DeclarationError)
  /-- The filter or the ordering was refused. -/
  | request (error : RequestError)
  /-- The filter or the ordering could not be compiled. -/
  | compile (error : CompileError)
  /-- The types could not be walked. -/
  | discovery (error : DiscoveryError)
  /-- The file of a filter or an ordering cannot be read. -/
  | unreadable (path : String)
  /-- An ordering is no JSON. -/
  | invalidJson
  /-- There are no roots to start from. -/
  | noRoots
deriving DecidableEq, Repr

/-- The wording of a failure. -/
def Failure.message : Failure → String
  | usage stop => stop.message
  | config path _ => s!"Failed to load config from {path}"
  | declaration error => error.message
  | request error => error.message
  | compile error => error.message
  | discovery error => error.message
  | unreadable path => s!"Failed to read JSON from {path}"
  | invalidJson => "Invalid JSON argument"
  | noRoots => "No root types given and schema.roots is empty"

/-- What a command answers. -/
structure Output where
  /-- The log level that counts. -/
  level : LogLevel
  /-- What is printed. -/
  text : String
deriving DecidableEq, Repr

/-- Contents of files, by path. -/
abbrev Files := String → Option String

/-- Values of variables, by name. -/
abbrev Environment := String → Option String

/-! ### Compilation -/

/-- The path that an argument refers to. -/
def pathOf? (argument : String) : Option String :=
  match argument.toList with
  | '@' :: path => some (String.ofList path)
  | _ => none

/-- The text that an argument gives or refers to. -/
def readArgument (files : Files) (argument : String) : Except Failure String :=
  match pathOf? argument with
  | none => .ok argument
  | some path => (files path).elim (.error (.unreadable path)) .ok

/-- The engine that a configuration describes. -/
def engineOf (config : Config) : Except Failure Engine :=
  (Engine.ofConfig config).mapError .declaration

/-- Reads and compiles the ordering of an argument. -/
def compileOrder (files : Files) (engine : Engine) (entity argument : String) :
    Except Failure Sorting := do
  match Json.ofText? (← readArgument files argument) with
  | none => .error .invalidJson
  | some document =>
    (engine.order entity document).mapError fun error =>
      match error with
      | .request error => .request error
      | .compile error => .compile error

/-- A predicate as members: its SQL with parameters, or its query. -/
def predicateMembers (predicate : Predicate) : Json.Members :=
  match predicate.sql?, predicate.document? with
  | some sql, _ => [("where", .string sql), ("params", .array predicate.params)]
  | none, some document => [("query", document)]
  | none, none => []

/-- An ordering as a member, if it orders by anything. -/
def sortingMembers (sorting : Sorting) : Json.Members :=
  if sorting.isEmpty then []
  else
    match sorting.sql? with
    | some sql => [("order_by", .string sql)]
    | none => [("sort", sorting.document)]

/-- Prints the compiled filter and ordering. -/
def compile (files : Files) (config : Config) (entity filter : String) (order : Option String) :
    Except Failure String := do
  let engine ← engineOf config
  let text ← readArgument files filter
  let bound ← (engine.readFilterText entity text).mapError .request
  let predicate ← (engine.compileFilter bound).mapError .compile
  let sorting ← order.mapM (compileOrder files engine entity)
  let document := Json.object <|
    [("adapter", Json.string predicate.adapter.name)] ++ predicateMembers predicate ++
      sorting.elim [] sortingMembers
  return document.pretty ++ "\n"

/-! ### Types and operators -/

/-- Walks the types from the given roots, or from the configured ones if none are given. -/
def walk (config : Config) (roots : List String) : Except Failure (TypeGraph × List String) := do
  let roots := if roots.isEmpty then config.schema.roots else roots
  if roots.isEmpty then .error .noRoots
  else do
    let graph ← (TypeGraph.ofConfig config.schema).mapError .discovery
    let types ← (graph.discover roots).mapError .discovery
    return (graph, types)

/-- A line about a type; entities have a star. -/
def typeLine (graph : TypeGraph) (type : String) : String :=
  let mark := if graph.isEntity type then "*" else " "
  let sort := (graph.sort? type).elim "" Config.TypeSort.word
  s!"{mark} {type} ({sort})\n"

/-- Prints the types reached from roots. -/
def discover (config : Config) (roots : List String) : Except Failure String := do
  let (graph, types) ← walk config roots
  return String.join (types.map (typeLine graph))

/-- The inputs of the entities reached from roots. -/
def reachedInputs (config : Config) (roots : List String) : Except Failure Inputs := do
  let engine ← engineOf config
  let (graph, types) ← walk config roots
  return Inputs.generate engine (graph.entitiesAmong types)

/-- Prints the inputs of the entities reached from roots. -/
def inputs (config : Config) (roots : List String) : Except Failure String := do
  return (← reachedInputs config roots).toJson.pretty ++ "\n"

/-- A line about a kind: its operators, and the kind that it takes them from if that is another. -/
def kindLine (engine : Engine) (kind : Kind) : String :=
  let effective := engine.registry.effectiveKind kind engine.adapter
  let operators := engine.registry.operatorsFor effective engine.adapter
  let keys := ", ".intercalate (operators.map Operator.key)
  let source := if effective = kind then "" else s!" (as {effective.label})"
  s!"{kind.label}{source}: {keys}\n"

/-- Prints the operators of a kind, or of all kinds. -/
def operators (config : Config) (kind : Option String) : Except Failure String := do
  let engine ← engineOf config
  let kinds ←
    match kind with
    | some text => do pure [← (Kind.read text).mapError Failure.declaration]
    | none => pure engine.registry.kinds
  return s!"adapter: {engine.adapter.name}\n" ++ String.join (kinds.map (kindLine engine))

/-! ### Running -/

namespace Invocation

/-- The configuration of an invocation. Without a path it is the default one under the variables
of the environment; an adapter on the command line counts before all. -/
def configuration (files : Files) (environment : Environment) (invocation : Invocation) :
    Except Failure Config := do
  let config ←
    match invocation.config with
    | some path => (Config.loadFile environment path (files path)).mapError (.config path)
    | none => pure (({} : Config).override environment)
  return { config with
    adapter := { config.adapter with name := invocation.adapter <|> config.adapter.name } }

/-- Runs a command. -/
def run (files : Files) (environment : Environment) (invocation : Invocation) :
    Except Failure Output := do
  let config ← invocation.configuration files environment
  let text ←
    match invocation.command with
    | .compile entity filter order => CommandLine.compile files config entity filter order
    | .discover roots => CommandLine.discover config roots
    | .operators kind => CommandLine.operators config kind
    | .inputs roots => CommandLine.inputs config roots
  return ⟨LogLevel.resolve invocation.logLevel invocation.verbose config.logging.level, text⟩

/-- The paths of the files that an invocation may read. -/
def paths (invocation : Invocation) : List String :=
  invocation.config.toList ++
    match invocation.command with
    | .compile _ filter order => (filter :: order.toList).filterMap pathOf?
    | _ => []

end Invocation

/-- Reads the arguments and runs the command. -/
def run (files : Files) (environment : Environment) (arguments : List String) :
    Except Failure Output := do
  let invocation ← (Invocation.parse (environment configVariable) arguments).mapError .usage
  invocation.run files environment

end Criteria.CommandLine
