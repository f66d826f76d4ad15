import Criteria.Json.Basic
import Criteria.Limits
import Criteria.Text.Blank

/-!
# Configurations

A configuration binds the adapter, sets the limits and the log level, and declares types and enums.
Types are entities with fields, and also the unions, inputs, enums and scalars that fields refer
to. It is plain data: what the names in it mean is decided where a schema, a registry or a type
graph is built from it.

`Config.validate` refuses what no later step could make sense of: a limit of zero, and repeated or
blank names. `Config.toJson` writes a configuration without the parts that are empty.
-/

namespace Criteria.Config

/-- How the adapter is bound. -/
structure AdapterSection where
  /-- The name of the adapter. -/
  name : Option String := none
  /-- The storage backend it is inferred from. -/
  backend : Option String := none
deriving DecidableEq, Repr, Inhabited

/-- What is logged. -/
structure LoggingSection where
  /-- The least severe level that is shown. -/
  level : String := "warn"
deriving DecidableEq, Repr, Inhabited

/-- The sort of a declared type. -/
inductive TypeSort where
  | object
  | interface
  | union
  | input
  | enum
  | scalar
deriving DecidableEq, Repr, Inhabited

/-- An argument of a field. -/
structure ArgumentSection where
  /-- The name of the argument. -/
  name : String
  /-- The type it refers to. -/
  type : String
deriving DecidableEq, Repr

/-- A declared field. -/
structure FieldSection where
  /-- The name clients use. -/
  name : String
  /-- The type it refers to. -/
  type : Option String := none
  /-- Its kind; a field without one cannot be filtered by. -/
  kind : Option String := none
  /-- Its native reference, the name by default. -/
  column : Option String := none
  /-- Whether clients may filter by it. -/
  filterable : Option Bool := none
  /-- Whether clients may order by it. -/
  sortable : Option Bool := none
  /-- Its arguments. -/
  args : List ArgumentSection := []
deriving DecidableEq, Repr

/-- A declared type. -/
structure TypeSection where
  /-- The name of the type. -/
  name : String
  /-- Its sort. -/
  sort : TypeSort := .object
  /-- The interfaces it implements. -/
  interfaces : List String := []
  /-- The members of a union. -/
  members : List String := []
  /-- Its fields. -/
  fields : List FieldSection := []
deriving DecidableEq, Repr

/-- A declared enum. -/
structure EnumSection where
  /-- The name of the enum. -/
  name : String
  /-- Its values. -/
  values : List String := []
  /-- The keys of the operators it is restricted to; none means no restriction. -/
  operators : List String := []
deriving DecidableEq, Repr

/-- What is declared. -/
structure SchemaSection where
  /-- The types that discovery starts from. -/
  roots : List String := []
  /-- The declared types. -/
  types : List TypeSection := []
  /-- The declared enums. -/
  enums : List EnumSection := []
deriving DecidableEq, Repr, Inhabited

end Config

/-- A configuration. -/
structure Config where
  /-- How the adapter is bound. -/
  adapter : Config.AdapterSection := {}
  /-- The limits on requests. -/
  limits : Limits := {}
  /-- What is logged. -/
  logging : Config.LoggingSection := {}
  /-- What is declared. -/
  schema : Config.SchemaSection := {}
deriving DecidableEq, Repr, Inhabited

namespace Config

/-- The native reference of a field. -/
def FieldSection.reference (field : FieldSection) : String := field.column.getD field.name

/-- The word for a sort of type. -/
def TypeSort.word : TypeSort → String
  | object => "object"
  | interface => "interface"
  | union => "union"
  | input => "input"
  | enum => "enum"
  | scalar => "scalar"

/-- The sort of type with a word. -/
def TypeSort.ofWord? : String → Option TypeSort
  | "object" => some .object
  | "interface" => some .interface
  | "union" => some .union
  | "input" => some .input
  | "enum" => some .enum
  | "scalar" => some .scalar
  | _ => none

/-- Types of these sorts have fields that clients may use. -/
def TypeSort.isEntity : TypeSort → Bool
  | object | interface => true
  | _ => false

/-! ### Validity -/

/-- A value that makes no sense: where it stands and what is wrong with it. -/
structure Fault where
  /-- The dotted path of the value. -/
  path : String
  /-- What is wrong with it. -/
  problem : String
deriving DecidableEq, Repr

/-- The limits with their paths. -/
def limitPaths (limits : Limits) : List (String × Nat) :=
  [("limits.max_depth", limits.maxDepth),
   ("limits.max_input_bytes", limits.maxInputBytes),
   ("limits.max_predicates", limits.maxPredicates),
   ("limits.max_list_len", limits.maxListLength),
   ("limits.max_order_clauses", limits.maxOrderClauses)]

/-- The limits are positive. -/
def validateLimits (limits : Limits) : Except Fault Unit :=
  match (limitPaths limits).find? fun entry => entry.2 == 0 with
  | some (path, _) => .error ⟨path, "must be greater than zero"⟩
  | none => .ok ()

/-- The first name that stands earlier in the list as well. -/
def firstRepeated? (seen : List String) : List String → Option String
  | [] => none
  | name :: rest => if seen.contains name then some name else firstRepeated? (name :: seen) rest

/-- The names of the fields of a type differ. -/
def validateFields (type : TypeSection) : Except Fault Unit :=
  match firstRepeated? [] (type.fields.map FieldSection.name) with
  | some name => .error ⟨"schema.types." ++ type.name ++ ".fields." ++ name, "duplicate field name"⟩
  | none => .ok ()

/-- The types have different names that are not blank, and so have the fields of each. -/
def validateTypes (seen : List String) : List TypeSection → Except Fault Unit
  | [] => .ok ()
  | type :: rest => do
    if Text.trim type.name = "" then throw ⟨"schema.types.name", "type name must not be empty"⟩
    if seen.contains type.name then
      throw ⟨"schema.types." ++ type.name, "duplicate type name"⟩
    validateFields type
    validateTypes (type.name :: seen) rest

/-- The enums have different names. -/
def validateEnums (enums : List EnumSection) : Except Fault Unit :=
  match firstRepeated? [] (enums.map EnumSection.name) with
  | some name => .error ⟨"schema.enums." ++ name, "duplicate enum name"⟩
  | none => .ok ()

/-- The first fault of a configuration. -/
def validate (config : Config) : Except Fault Unit := do
  validateLimits config.limits
  validateTypes [] config.schema.types
  validateEnums config.schema.enums

/-! ### As a value -/

/-- A member that is left out without a value. -/
def optional (key : String) (value : Option Json) : Json.Members :=
  value.toList.map fun v => (key, v)

/-- A list member that is left out if it is empty. -/
def unlessEmpty (key : String) (items : List Json) : Json.Members :=
  if items.isEmpty then [] else [(key, .array items)]

/-- An argument as a value. -/
def ArgumentSection.toJson (arg : ArgumentSection) : Json :=
  .object [("name", .string arg.name), ("type", .string arg.type)]

/-- A field as a value. -/
def FieldSection.toJson (field : FieldSection) : Json :=
  .object <|
    [("name", Json.string field.name)] ++ optional "type" (field.type.map .string) ++
      optional "kind" (field.kind.map .string) ++ optional "column" (field.column.map .string) ++
      optional "filterable" (field.filterable.map .bool) ++
      optional "sortable" (field.sortable.map .bool) ++
      unlessEmpty "args" (field.args.map ArgumentSection.toJson)

/-- A type as a value. -/
def TypeSection.toJson (type : TypeSection) : Json :=
  .object <|
    [("name", Json.string type.name), ("kind", .string type.sort.word)] ++
      unlessEmpty "interfaces" (type.interfaces.map .string) ++
      unlessEmpty "members" (type.members.map .string) ++
      [("fields", .array (type.fields.map FieldSection.toJson))]

/-- An enum as a value. -/
def EnumSection.toJson (enum : EnumSection) : Json :=
  .object <|
    [("name", Json.string enum.name), ("values", .strings enum.values)] ++
      unlessEmpty "operators" (enum.operators.map .string)

/-- The declarations as a value. -/
def SchemaSection.toJson (schema : SchemaSection) : Json :=
  .object
    [("roots", .strings schema.roots),
     ("types", .array (schema.types.map TypeSection.toJson)),
     ("enums", .array (schema.enums.map EnumSection.toJson))]

/-- The limits as a value. -/
def limitsJson (limits : Limits) : Json :=
  .object
    [("max_depth", .nat limits.maxDepth), ("max_input_bytes", .nat limits.maxInputBytes),
     ("max_predicates", .nat limits.maxPredicates), ("max_list_len", .nat limits.maxListLength),
     ("max_order_clauses", .nat limits.maxOrderClauses)]

/-- A configuration as a value. -/
def toJson (config : Config) : Json :=
  .object
    [("adapter", .object (optional "name" (config.adapter.name.map .string) ++
       optional "backend" (config.adapter.backend.map .string))),
     ("limits", limitsJson config.limits),
     ("logging", .object [("level", .string config.logging.level)]),
     ("schema", config.schema.toJson)]

end Config

end Criteria
