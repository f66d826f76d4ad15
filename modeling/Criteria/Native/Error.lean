import Criteria.Request.Error
import Criteria.Schema

/-!
# What can go wrong in compilation

A `CompileError` says why a tree could not be compiled. Trees that come from a request never fail
with the causes that the request's own check covers; trees built by hand can.
-/

namespace Criteria

/-- What an operand lacks for its operator. -/
inductive LeafFault where
  | notBoolean
  | notText
  | notList
  | notRange
  /-- A point without numeric latitude and longitude. -/
  | noCoordinates
  /-- The distance under this key is missing or no text. -/
  | noDistance (key : String)
  /-- A custom filter gave this reason. -/
  | stated (reason : String)
deriving DecidableEq, Repr

/-- Why a tree was not compiled. -/
inductive CompileError where
  | unknownField (entity field : String)
  | unsupportedOperator (field operator : String) (kind : Kind) (adapter : Adapter)
  | invalidOperand (field operator : String) (fault : LeafFault)
  | notSortable (entity field : String)
  /-- A filter was read for another adapter. -/
  | otherAdapter (expected found : Adapter)
  /-- A part is no SQL where SQL is needed, or the other way round. -/
  | wrongFragment (expected : Adapter) (found : String)
  /-- No custom filter is registered for the operator. -/
  | unresolvedCustomFilter (entity field operator : String)
deriving DecidableEq, Repr

/-- The failure of a leaf for its operand. -/
def invalidLeaf (field : Field) (op : Operator) (fault : LeafFault) : CompileError :=
  .invalidOperand field.name op.key fault

/-- The wording of what an operand lacks. -/
def LeafFault.message : LeafFault → String
  | notBoolean => "expected a boolean"
  | notText => "expected a string"
  | notList => "expected a list"
  | notRange => "expected [low, high]"
  | noCoordinates => "expected an object with numeric lat and lon"
  | noDistance key => s!"expected a '{key}' distance string"
  | stated reason => reason

/-- The wording of a mismatch. -/
def mismatchMessage (expected found : String) : String :=
  s!"Adapter mismatch: bound to {expected}, got {found}"

/-- The wording of a failure. -/
def CompileError.message : CompileError → String
  | unknownField entity field => s!"Unknown field '{field}' on {entity}"
  | unsupportedOperator field operator kind adapter =>
    unsupportedMessage field operator kind.label adapter
  | invalidOperand field operator fault =>
    s!"Invalid operand for '{operator}' on field '{field}': " ++ fault.message
  | notSortable entity field => s!"Field '{field}' on {entity} is not sortable"
  | otherAdapter expected found => mismatchMessage expected.name found.name
  | wrongFragment expected found => mismatchMessage expected.name found
  | unresolvedCustomFilter entity field operator =>
    s!"No custom filter registered for '{operator}' on {entity}.{field}"

end Criteria
