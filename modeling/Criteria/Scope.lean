import Criteria.Custom
import Criteria.Limits
import Criteria.Registry
import Criteria.Schema

/-!
# What a request is checked against

A `Scope` gathers everything that decides whether a filter or an ordering of one entity is
accepted: the declared fields, the legal operators under the bound adapter, the custom filters and
the limits.
-/

namespace Criteria

/-- Everything a request for one entity is checked against. -/
structure Scope where
  /-- The entity asked for. -/
  entity : String
  /-- The declared fields. -/
  schema : Schema
  /-- The legal operators. -/
  registry : Registry
  /-- The adapter the request is compiled for. -/
  adapter : Adapter
  /-- The custom filters. -/
  custom : CustomFilters
  /-- The bounds on the request. -/
  limits : Limits

namespace Scope

/-- The declared field with a name. -/
def field? (scope : Scope) (name : String) : Option Field := scope.schema.field? scope.entity name

/-- Whether a custom filter is registered for an operator key of a field. -/
def hasCustom (scope : Scope) (name key : String) : Bool :=
  scope.custom.contains scope.entity name key

/-- Whether a field has any custom filter. -/
def hasCustomField (scope : Scope) (name : String) : Bool :=
  scope.custom.hasField scope.entity name

end Scope

end Criteria
