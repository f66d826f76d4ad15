import Criteria.Config.Basic
import Criteria.Registry
import Criteria.Schema

/-!
# Declarations of a configuration

The schema and the registry that a configuration declares. Only objects and interfaces are
entities. A field without a kind is declared all the same, so that clients learn that it cannot be
filtered by and not that it is unknown.
-/

namespace Criteria

/-- The field that a configuration declares. -/
def Field.ofConfig (declared : Config.FieldSection) : Except DeclarationError Field := do
  let base ←
    match declared.kind with
    | some kind => do pure (Field.declare declared.name (← Kind.read kind))
    | none =>
      pure { Field.declare declared.name .generic with filterable := false, sortable := false }
  return { base with
    reference := declared.reference
    filterable := declared.filterable.getD base.filterable
    sortable := declared.sortable.getD base.sortable }

/-- The entity that a configuration declares. -/
def Entity.ofConfig (type : Config.TypeSection) : Except DeclarationError Entity := do
  return ⟨type.name, ← type.fields.mapM Field.ofConfig⟩

/-- The schema that a configuration declares. -/
def Schema.ofConfig (schema : Config.SchemaSection) : Except DeclarationError Schema := do
  Schema.build (← (schema.types.filter fun type => type.sort.isEntity).mapM Entity.ofConfig)

/-- The enum that a configuration declares. -/
def EnumDeclaration.ofConfig (enum : Config.EnumSection) :
    Except DeclarationError EnumDeclaration := do
  let operators ← enum.operators.mapM Operator.read
  return ⟨enum.name, enum.values, if operators.isEmpty then none else some operators⟩

/-- Declares the enums of a configuration in turn. -/
def Registry.addEnums (registry : Registry) :
    List Config.EnumSection → Except DeclarationError Registry
  | [] => .ok registry
  | enum :: rest => do
    (← registry.registerEnum (← EnumDeclaration.ofConfig enum)).addEnums rest

/-- The registry that a configuration declares. -/
def Registry.ofConfig (schema : Config.SchemaSection) : Except DeclarationError Registry :=
  Registry.empty.addEnums schema.enums

end Criteria
