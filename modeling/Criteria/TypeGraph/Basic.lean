import Criteria.Catalog
import Criteria.Config.Basic

/-!
# The graph of types

Every declared type is a node that refers to the types it mentions: the types of its fields and of
their arguments, the interfaces it implements and the members of a union. References drop the marks
of lists and of values that must be present, so `[User!]!` refers to `User`.

The built-in scalars are nodes of every graph unless declared otherwise.
-/

namespace Criteria

/-- Why a graph was not built or not walked. -/
inductive DiscoveryError where
  /-- A type refers to one that is not declared. -/
  | danglingReference (source target : String)
  /-- A root is not declared. -/
  | unknownRoot (name : String)
  /-- Two types have the same name. -/
  | duplicateType (name : String)
deriving DecidableEq, Repr

/-- The wording of a failure. -/
def DiscoveryError.message : DiscoveryError → String
  | danglingReference source target => s!"Type '{source}' references unknown type '{target}'"
  | unknownRoot name => s!"Unknown root type '{name}'"
  | duplicateType name => s!"Type '{name}' declared more than once"

/-- Whether a character marks a list or a value that must be present, or is a space. -/
def isTypeMark (c : Char) : Bool := c = '[' || c = ']' || c = '!' || c = ' '

/-- The type that a reference names. -/
def namedType (reference : String) : String :=
  String.ofList (Text.strip isTypeMark (Text.strip Text.isBlank reference.toList))

/-- A declared type and the types it refers to, each once, in the order of their first mention. -/
structure TypeNode where
  /-- The name of the type. -/
  name : String
  /-- Its sort. -/
  sort : Config.TypeSort
  /-- The types it refers to. -/
  references : List String
deriving DecidableEq, Repr

namespace TypeNode

/-- Adds a reference unless it is there already or names nothing. -/
def addReference (references : List String) (reference : String) : List String :=
  let name := namedType reference
  if name = "" || references.contains name then references else references ++ [name]

/-- The types that a list of references names. -/
def collect (references : List String) : List String := references.foldl addReference []

/-- A type with the references it mentions. -/
def mention (name : String) (sort : Config.TypeSort) (references : List String) : TypeNode :=
  ⟨name, sort, collect references⟩

/-- The references of a field: its type and then those of its arguments. -/
def fieldReferences (field : Config.FieldSection) : List String :=
  field.type.toList ++ field.args.map Config.ArgumentSection.type

/-- The node of a declared type. -/
def ofConfig (type : Config.TypeSection) : TypeNode :=
  mention type.name type.sort
    (type.fields.flatMap fieldReferences ++ type.interfaces ++ type.members)

end TypeNode

/-- Types under their names. -/
structure TypeGraph where
  /-- The nodes. -/
  types : Catalog TypeNode

namespace TypeGraph

/-- The scalars that every graph has. -/
def builtinScalars : List String :=
  ["ID", "String", "Int", "Float", "Boolean", "DateTime", "Date", "Time", "JSON"]

/-- Adds nodes in turn, up to the first with a name that is taken. -/
def addAll (types : Catalog TypeNode) : List TypeNode → Except DiscoveryError (Catalog TypeNode)
  | [] => .ok types
  | node :: rest =>
    if types.contains node.name then .error (.duplicateType node.name)
    else addAll (types.insert node.name node) rest

/-- Adds the built-in scalars that are not declared. -/
def addScalars (types : Catalog TypeNode) : Catalog TypeNode :=
  builtinScalars.foldl
    (fun types name =>
      if types.contains name then types else types.insert name ⟨name, .scalar, []⟩) types

/-- The graph of a list of nodes. -/
def build (nodes : List TypeNode) : Except DiscoveryError TypeGraph := do
  return ⟨addScalars (← addAll .empty nodes)⟩

/-- The enums of a configuration that are not declared as types as well. -/
def enumNodes (schema : Config.SchemaSection) : List TypeNode :=
  let declared := schema.types.map Config.TypeSection.name
  (schema.enums.filter fun enum => !declared.contains enum.name).map
    fun enum => ⟨enum.name, .enum, []⟩

/-- The graph that a configuration declares. -/
def ofConfig (schema : Config.SchemaSection) : Except DiscoveryError TypeGraph :=
  build (schema.types.map TypeNode.ofConfig ++ enumNodes schema)

/-- The node with a name. -/
def node? (graph : TypeGraph) (name : String) : Option TypeNode := graph.types.get? name

/-- The sort of a type. -/
def sort? (graph : TypeGraph) (name : String) : Option Config.TypeSort :=
  (graph.node? name).map TypeNode.sort

/-- Whether a type has fields that clients may use. -/
def isEntity (graph : TypeGraph) (name : String) : Bool :=
  (graph.sort? name).any Config.TypeSort.isEntity

end TypeGraph

end Criteria
