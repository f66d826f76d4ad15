/-!
# What can be wrong with a declaration

Schemas, enums and adapters are declared once, before any request. A `DeclarationError` says why a
declaration was refused; `DeclarationError.message` is its wording.
-/

namespace Criteria

/-- Why a declaration was refused. -/
inductive DeclarationError where
  /-- No kind has this name. -/
  | unknownKind (text : String)
  /-- No adapter has this name. -/
  | unknownAdapter (text : String)
  /-- No operator has this key. -/
  | unknownOperator (text : String)
  /-- The name of an entity or a field is no identifier. -/
  | invalidIdentifier (name : String)
  /-- The native reference of a field has a part that is no native name. -/
  | invalidNativeReference (field reference : String)
  /-- Two entities have the same name. -/
  | duplicateEntity (name : String)
  /-- Two fields of an entity have the same name. -/
  | duplicateField (entity field : String)
  /-- An enum is restricted to an operator that enums do not have. -/
  | enumOperatorNotAllowed (name operator : String)
  /-- An enum has the name of a built-in operator input. -/
  | reservedEnumName (name : String)
deriving DecidableEq, Repr

/-- The wording of a refusal. -/
def DeclarationError.message : DeclarationError → String
  | unknownKind text => s!"Unknown scalar kind '{text}'"
  | unknownAdapter text => s!"Unknown adapter '{text}'"
  | unknownOperator text => s!"Unknown operator '{text}'"
  | invalidIdentifier name => s!"Invalid identifier '{name}'"
  | invalidNativeReference field reference =>
    s!"Invalid native reference '{reference}' for field '{field}'"
  | duplicateEntity name => s!"Entity '{name}' declared more than once"
  | duplicateField entity field => s!"Field '{field}' declared more than once on {entity}"
  | enumOperatorNotAllowed name operator =>
    s!"Operator '{operator}' cannot be used with enum {name}"
  | reservedEnumName name => s!"Enum name '{name}' is reserved for a built-in kind"

end Criteria
