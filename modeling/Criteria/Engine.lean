import Criteria.Config.Declarations
import Criteria.Filter.Compile
import Criteria.Filter.Reading
import Criteria.Order.Compile
import Criteria.Order.Reading

/-!
# Engines

An engine is assembled once and then answers requests: it reads filters and orderings of clients
and compiles them for the adapter it is bound to. A filter that was read is bound to the adapter
and the entity it was checked for; it is never compiled for another adapter.
-/

namespace Criteria

/-- Everything that is fixed before the first request. -/
structure Engine where
  /-- The adapter the engine is bound to. -/
  adapter : Adapter := default
  /-- The declared entities. -/
  schema : Schema := .empty
  /-- The legal operators. -/
  registry : Registry := .empty
  /-- The custom filters. -/
  custom : CustomFilters := .empty
  /-- The bounds on requests. -/
  limits : Limits := {}

/-- A filter with the adapter and the entity it was checked for. -/
structure BoundFilter where
  /-- The adapter. -/
  adapter : Adapter
  /-- The entity. -/
  entity : String
  /-- The filter itself. -/
  root : Filter
deriving Repr

/-- Why a request was not compiled. -/
inductive QueryError where
  /-- It was refused. -/
  | request (error : RequestError)
  /-- It could not be compiled. -/
  | compile (error : CompileError)
deriving DecidableEq, Repr

namespace Engine

/-- The engine that a configuration describes. -/
def ofConfig (config : Config) : Except DeclarationError Engine := do
  let adapter ← Adapter.resolve config.adapter.name config.adapter.backend
  let schema ← Schema.ofConfig config.schema
  let registry ← Registry.ofConfig config.schema
  return { adapter, schema, registry, limits := config.limits }

/-- What requests for an entity are checked against. -/
def scope (engine : Engine) (entity : String) : Scope :=
  ⟨entity, engine.schema, engine.registry, engine.adapter, engine.custom, engine.limits⟩

/-- The entity is declared. -/
def checkEntity (engine : Engine) (entity : String) : Except RequestError Unit :=
  if engine.schema.contains entity then .ok () else .error (.unknownEntity entity)

/-- Binds a filter to the engine's adapter and an entity. -/
def bind (engine : Engine) (entity : String) (root : Filter) : BoundFilter :=
  ⟨engine.adapter, entity, root⟩

/-- Reads a filter document for an entity. -/
def readFilter (engine : Engine) (entity : String) (document : Json) :
    Except RequestError BoundFilter := do
  engine.checkEntity entity
  return engine.bind entity (← Filter.read (engine.scope entity) document)

/-- Reads a filter for an entity from JSON text. -/
def readFilterText (engine : Engine) (entity : String) (text : String) :
    Except RequestError BoundFilter := do
  engine.checkEntity entity
  return engine.bind entity (← Filter.readText (engine.scope entity) text)

/-- Compiles a filter, which must have been checked for the engine's adapter. -/
def compileFilter (engine : Engine) (filter : BoundFilter) : Except CompileError Predicate :=
  if filter.adapter = engine.adapter then
    Filter.compile (engine.scope filter.entity) filter.root
  else .error (.otherAdapter engine.adapter filter.adapter)

/-- Reads and compiles a filter document. -/
def filter (engine : Engine) (entity : String) (document : Json) : Except QueryError Predicate := do
  let bound ← (engine.readFilter entity document).mapError .request
  (engine.compileFilter bound).mapError .compile

/-- Reads an ordering for an entity. -/
def readOrder (engine : Engine) (entity : String) (document : Json) :
    Except RequestError (List OrderClause) := do
  engine.checkEntity entity
  Order.read (engine.scope entity) document

/-- Compiles an ordering. -/
def compileOrder (engine : Engine) (entity : String) (clauses : List OrderClause) :
    Except CompileError Sorting :=
  Order.compile (engine.scope entity) clauses

/-- Reads and compiles an ordering. -/
def order (engine : Engine) (entity : String) (document : Json) : Except QueryError Sorting := do
  let clauses ← (engine.readOrder entity document).mapError .request
  (engine.compileOrder entity clauses).mapError .compile

end Engine

end Criteria
