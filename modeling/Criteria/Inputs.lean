import Criteria.Catalog
import Criteria.Engine

/-!
# Generated inputs

For each entity among a set of types, what clients may write about it: a filter input with its
fields, an order input with the fields to order by, and for every kind in use an operator input
with the operators that are legal on it.

Inputs are kept under their names in catalogs, so they do not depend on the order of the types, and
types without a declared entity contribute nothing.
-/

namespace Criteria

/-- An operator as it is advertised. -/
structure OperatorEntry where
  /-- The operator. -/
  op : Operator
  /-- The shape of its operand. -/
  shape : OperandShape
deriving DecidableEq, Repr

/-- The operators of a kind. -/
structure OperatorInput where
  /-- The name of the input. -/
  name : String
  /-- The kind. -/
  kind : Kind
  /-- The operators legal on it. -/
  operators : List OperatorEntry
deriving DecidableEq, Repr

/-- A field that may be filtered by. -/
structure FilterField where
  /-- The name of the field. -/
  name : String
  /-- The name of its operator input, `none` if it has custom operators only. -/
  operators : Option String
  /-- The keys of its custom operators. -/
  customOperators : List String
deriving DecidableEq, Repr

/-- The filter input of an entity. -/
structure FilterInput where
  /-- The name of the input. -/
  name : String
  /-- The entity. -/
  entity : String
  /-- Its fields. -/
  fields : List FilterField
deriving DecidableEq, Repr

/-- The order input of an entity. -/
structure OrderInput where
  /-- The name of the input. -/
  name : String
  /-- The entity. -/
  entity : String
  /-- The fields to order by. -/
  fields : List String
deriving DecidableEq, Repr

/-- The inputs for an adapter, each under its name. -/
structure Inputs where
  /-- The adapter. -/
  adapter : Adapter
  /-- The operators of the kinds in use. -/
  operatorInputs : Catalog OperatorInput
  /-- The filters. -/
  filterInputs : Catalog FilterInput
  /-- The orderings. -/
  orderInputs : Catalog OrderInput

namespace Inputs

/-- The keys that combine filters. -/
def combinators : List String := ["_and", "_or", "_not"]

/-- The name of the operator input of a kind. -/
def operatorInputName (kind : Kind) : String := kind.inputName ++ "Operators"

/-- The operator input of a kind. -/
def operatorInput (registry : Registry) (adapter : Adapter) (kind : Kind) : OperatorInput where
  name := operatorInputName kind
  kind := kind
  operators := (registry.operatorsFor kind adapter).map fun op => ⟨op, op.shape kind⟩

/-- The kinds of the fields of an entity that may be filtered by, as they are treated under the
adapter. -/
def kindsOf (registry : Registry) (adapter : Adapter) (entity : Entity) : List Kind :=
  entity.filterable.map fun field => registry.effectiveKind field.kind adapter

/-- A declared field, `none` if clients cannot filter by it at all. -/
def filterField? (registry : Registry) (adapter : Adapter) (custom : CustomFilters)
    (entity : Entity) (field : Field) : Option FilterField :=
  let customOperators := custom.operatorKeys entity.name field.name
  if field.filterable then
    let kind := registry.effectiveKind field.kind adapter
    some ⟨field.name, some (operatorInputName kind), customOperators⟩
  else if customOperators.isEmpty then none
  else some ⟨field.name, none, customOperators⟩

/-- The computed fields of an entity, known only through their custom operators. -/
def computedFields (custom : CustomFilters) (entity : Entity) : List FilterField :=
  ((custom.fieldNames entity.name).filter fun name => (entity.field? name).isNone).map
    fun name => ⟨name, none, custom.operatorKeys entity.name name⟩

/-- The filter input of an entity. -/
def filterInput (registry : Registry) (adapter : Adapter) (custom : CustomFilters)
    (entity : Entity) : FilterInput where
  name := entity.name ++ "Filter"
  entity := entity.name
  fields := entity.fields.filterMap (filterField? registry adapter custom entity) ++
    computedFields custom entity

/-- The order input of an entity. -/
def orderInput (entity : Entity) : OrderInput where
  name := entity.name ++ "Order"
  entity := entity.name
  fields := entity.sortable.map Field.name

/-- The declared entities among a list of types. -/
def entitiesAmong (schema : Schema) (types : List String) : List Entity :=
  schema.entities.values.filter fun entity => types.contains entity.name

/-- The inputs for the entities among a list of types. -/
def generate (engine : Engine) (types : List String) : Inputs where
  adapter := engine.adapter
  operatorInputs :=
    .ofList <| ((entitiesAmong engine.schema types).flatMap
      (kindsOf engine.registry engine.adapter)).map fun kind =>
        (operatorInputName kind, operatorInput engine.registry engine.adapter kind)
  filterInputs :=
    .ofList <| (entitiesAmong engine.schema types).map fun entity =>
      let input := filterInput engine.registry engine.adapter engine.custom entity
      (input.name, input)
  orderInputs :=
    .ofList <| (entitiesAmong engine.schema types).map fun entity =>
      let input := orderInput entity
      (input.name, input)

/-! ### As a value -/

/-- An operator as a value. -/
def entryJson (entry : OperatorEntry) : Json :=
  .object
    [("key", .string entry.op.key), ("category", .string entry.op.category.word),
     ("shape", .string entry.shape.word)]

/-- An operator input as a value. -/
def operatorInputJson (input : OperatorInput) : Json :=
  .object
    [("name", .string input.name), ("kind", .string input.kind.label),
     ("operators", .array (input.operators.map entryJson))]

/-- A filter field as a value, without the parts it does not have. -/
def filterFieldJson (field : FilterField) : Json :=
  .object <|
    ("name", .string field.name) ::
      (Config.optional "operators" (field.operators.map .string) ++
        Config.unlessEmpty "custom_operators" (field.customOperators.map .string))

/-- A filter input as a value. -/
def filterInputJson (input : FilterInput) : Json :=
  .object
    [("name", .string input.name), ("entity", .string input.entity),
     ("combinators", .strings combinators), ("fields", .array (input.fields.map filterFieldJson))]

/-- An order input as a value. -/
def orderInputJson (input : OrderInput) : Json :=
  .object
    [("name", .string input.name), ("entity", .string input.entity),
     ("fields", .strings input.fields)]

/-- Inputs as a value. -/
def toJson (inputs : Inputs) : Json :=
  .object
    [("adapter", .string inputs.adapter.name),
     ("operator_inputs", .object (inputs.operatorInputs.map operatorInputJson).entries),
     ("filter_inputs", .object (inputs.filterInputs.map filterInputJson).entries),
     ("order_inputs", .object (inputs.orderInputs.map orderInputJson).entries)]

end Inputs

end Criteria
