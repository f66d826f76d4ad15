import Criteria.Adapter
import Criteria.Operator
import Criteria.Request.Path

/-!
# What can be wrong with a request

A `RequestError` says why a client's filter or ordering was refused: an unknown or closed field, an
operator that does not apply, an operand of the wrong form, a document of the wrong shape, or a
limit that was exceeded. None of them is an error of the declarations.

Faults of single values have types of their own (`ValueFault`, `OperandFault`, `ShapeFault`), so
that every wording stands in one place.
-/

namespace Criteria

/-- What is wrong with one value of an operand. -/
inductive ValueFault where
  /-- It is `null`. -/
  | null
  /-- It is no value of the kind. -/
  | notOfKind (kind : Kind)
  /-- It is no text, as every value of an enum is. -/
  | notEnumText (enum : String)
  /-- It is none of the values of the enum. -/
  | notEnumValue (text enum : String) (values : List String)
deriving DecidableEq, Repr

/-- What is wrong with an operand. -/
inductive OperandFault where
  /-- A field was given without any operator. -/
  | noOperator
  /-- It is no boolean. -/
  | notFlag
  /-- It is no text. -/
  | notText
  /-- It is no list. -/
  | notList
  /-- It lists more elements than allowed. -/
  | tooLong (length limit : Nat)
  /-- It is no list of two bounds. -/
  | notRange
  /-- It is no object. -/
  | notObject
  /-- The value itself is at fault. -/
  | value (fault : ValueFault)
  /-- An element is at fault. -/
  | element (index : Nat) (fault : ValueFault)
  /-- The lower bound is at fault. -/
  | low (fault : ValueFault)
  /-- The upper bound is at fault. -/
  | high (fault : ValueFault)
  /-- A point lacks a numeric latitude or longitude. -/
  | noCoordinates (point : String)
  /-- A point lies outside the globe. -/
  | offGlobe (point : String)
  /-- The text of a distance is none. -/
  | notDistance (text : String)
  /-- The distance is missing or no text. -/
  | noDistance (key : String)
deriving DecidableEq, Repr

/-- What is wrong with the shape of a document. -/
inductive ShapeFault where
  /-- No object of conditions. -/
  | notObject
  /-- No list of objects of conditions. -/
  | notObjectList
  /-- No object of operators. -/
  | notOperators
  /-- No ordering at all. -/
  | notOrdering
  /-- An entry of an ordering that names none or several fields. -/
  | notSingleField (count : Nat)
  /-- Neither the name of a direction nor an object. -/
  | notDirection
  /-- A name that is no direction. -/
  | unknownDirection (text : String)
  /-- A direction that is no text. -/
  | directionNotText
  /-- A name that is no position of nulls. -/
  | unknownNulls (text : String)
  /-- A position of nulls that is no text. -/
  | nullsNotText
deriving DecidableEq, Repr

/-- Why a request was refused. -/
inductive RequestError where
  | unknownEntity (entity : String)
  | unknownField (entity field : String)
  | notFilterable (entity field : String)
  | notSortable (entity field : String)
  /-- The operator does not apply to the field under the adapter; a field without a kind exists
  only through its custom operators. -/
  | unsupportedOperator (field operator : String) (kind : Option Kind) (adapter : Adapter)
  | invalidOperand (field operator : String) (fault : OperandFault)
  | malformed (path : Path) (fault : ShapeFault)
  | tooDeep (limit : Nat)
  | inputTooLarge (size limit : Nat)
  | tooManyPredicates (limit : Nat)
  | tooManyClauses (count limit : Nat)
  | invalidJson
deriving DecidableEq, Repr

/-! ### Wording -/

/-- What a value of a kind is called. -/
def Kind.description : Kind → String
  | .id => "a string or integer id"
  | .string => "a string"
  | .integer => "an integer"
  | .float => "a number"
  | .boolean => "a boolean"
  | .dateTime => "an RFC 3339 datetime"
  | .date => "a YYYY-MM-DD date"
  | .time => "an HH:MM:SS time"
  | .enum _ => "an enum value"
  | .array | .geoPoint | .generic => "a value"

/-- The wording of a fault of a value. -/
def ValueFault.message : ValueFault → String
  | null => "null is only allowed with _is_null"
  | notOfKind kind => "expected " ++ kind.description
  | notEnumText enum => s!"expected a {enum} value"
  | notEnumValue text enum values =>
    let listed := String.intercalate ", " values
    s!"'{text}' is not a {enum} value (expected one of: {listed})"

/-- The wording of a fault of an operand. -/
def OperandFault.message : OperandFault → String
  | noOperator => "expected at least one operator"
  | notFlag => "expected true or false"
  | notText => "expected a string"
  | notList => "expected a list"
  | tooLong length limit => s!"list has {length} elements (max {limit})"
  | notRange => "expected [low, high]"
  | notObject => "expected an object"
  | value fault => fault.message
  | element index fault => s!"element {index}: " ++ fault.message
  | low fault => "low: " ++ fault.message
  | high fault => "high: " ++ fault.message
  | noCoordinates point => s!"{point} must have numeric lat and lon"
  | offGlobe point => s!"{point} is out of range"
  | notDistance text => s!"'{text}' is not a distance"
  | noDistance key => s!"expected a '{key}' distance such as \"10km\""

/-- The wording of a fault of shape. -/
def ShapeFault.message : ShapeFault → String
  | notObject => "expected an object"
  | notObjectList => "expected a list of objects"
  | notOperators => "expected an object of operators"
  | notOrdering => "expected a list of order clauses"
  | notSingleField count => s!"expected exactly one field, found {count}"
  | notDirection => "expected a direction string or object"
  | unknownDirection text => s!"invalid direction '{text}'"
  | directionNotText => "direction must be a string"
  | unknownNulls text => s!"invalid nulls position '{text}'"
  | nullsNotText => "nulls must be a string"

/-- What an operator does not apply to. -/
def unsupportedMessage (field operator kind : String) (adapter : Adapter) : String :=
  let backend := adapter.name
  s!"Operator '{operator}' is not supported on {kind} field '{field}' by the {backend} adapter"

/-- The wording of a refusal. -/
def RequestError.message : RequestError → String
  | unknownEntity entity => s!"Unknown entity '{entity}'"
  | unknownField entity field => s!"Unknown field '{field}' on {entity}"
  | notFilterable entity field => s!"Field '{field}' on {entity} is not filterable"
  | notSortable entity field => s!"Field '{field}' on {entity} is not sortable"
  | unsupportedOperator field operator kind adapter =>
    unsupportedMessage field operator (kind.elim "computed" Kind.label) adapter
  | invalidOperand field operator fault =>
    s!"Invalid operand for '{operator}' on field '{field}': " ++ fault.message
  | malformed path fault => "Invalid expression at " ++ path.text ++ ": " ++ fault.message
  | tooDeep limit => s!"Expression nesting exceeds maximum depth of {limit}"
  | inputTooLarge size limit => s!"Filter input is {size} bytes (max {limit} bytes)"
  | tooManyPredicates limit => s!"Expression contains more than {limit} predicates"
  | tooManyClauses count limit => s!"Order expression has {count} clauses (max {limit})"
  | invalidJson => "Invalid JSON"

end Criteria
