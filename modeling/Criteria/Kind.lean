import Criteria.DeclarationError
import Criteria.Json.Basic
import Criteria.Text.Blank

/-!
# Kinds of fields

The kind of a field decides which operators apply to it and which operands they take. Besides the
built-in kinds there is one kind for every enum name; which values an enum has is the registry's
business.

Every kind has an *input name*, under which the operators it takes are advertised. The input names
of the built-in kinds are reserved, so an enum never shares its operators with another kind.

* `Kind.label` is the written form of a kind;
* `Kind.read` reads a written form, with blanks around it and in any letter case;
* `Kind.inputName` and `Kind.isReserved` are the names for advertised operators.
-/

namespace Criteria

/-- The kind of a field. -/
inductive Kind where
  | id
  | string
  | integer
  | float
  | boolean
  | dateTime
  | date
  | time
  /-- An enum, under its name. -/
  | enum (name : String)
  | array
  | geoPoint
  | generic
deriving DecidableEq, Repr, Inhabited

namespace Kind

/-- The kinds that need no declaration, in the order they are listed. -/
def builtin : List Kind :=
  [.id, .string, .integer, .float, .boolean, .dateTime, .date, .time, .array, .geoPoint, .generic]

/-- The name under which the operators of a kind are advertised. -/
def inputName : Kind → String
  | .id => "ID"
  | .string => "String"
  | .integer => "Int"
  | .float => "Float"
  | .boolean => "Boolean"
  | .dateTime => "DateTime"
  | .date => "Date"
  | .time => "Time"
  | .enum name => name
  | .array => "Array"
  | .geoPoint => "GeoPoint"
  | .generic => "Generic"

/-- Whether a name is the input name of a built-in kind. -/
def isReserved (name : String) : Bool := (builtin.map inputName).contains name

/-- The written form of a kind. -/
def label : Kind → String
  | .id => "id"
  | .string => "string"
  | .integer => "integer"
  | .float => "float"
  | .boolean => "boolean"
  | .dateTime => "datetime"
  | .date => "date"
  | .time => "time"
  | .enum name => "enum:" ++ name
  | .array => "array"
  | .geoPoint => "geo_point"
  | .generic => "generic"

/-- The built-in kind with a name in lower case. -/
def ofWord? : String → Option Kind
  | "id" => some .id
  | "string" | "text" => some .string
  | "integer" | "int" => some .integer
  | "float" | "decimal" => some .float
  | "boolean" | "bool" => some .boolean
  | "datetime" | "naive_datetime" | "utc_datetime" => some .dateTime
  | "date" => some .date
  | "time" => some .time
  | "array" => some .array
  | "geo_point" | "geopoint" => some .geoPoint
  | "generic" | "json" | "map" => some .generic
  | _ => none

/-- Reads an enum name behind `enum:`. It must not be blank or reserved. -/
def readEnum (text : String) (name : String) : Except DeclarationError Kind :=
  if name = "" then .error (.unknownKind text)
  else if isReserved name then .error (.reservedEnumName name)
  else .ok (.enum name)

/-- Reads a written kind. Built-in names may have any letter case, `enum:` may not. -/
def read (text : String) : Except DeclarationError Kind :=
  match (Text.trim text).toList with
  | 'e' :: 'n' :: 'u' :: 'm' :: ':' :: rest => readEnum text (Text.trim (String.ofList rest))
  | chars =>
    match ofWord? (Text.lower (String.ofList chars)) with
    | some kind => .ok kind
    | none => .error (.unknownKind text)

/-- Whether fields of a kind can be ordered by unless declared otherwise. -/
def sortableByDefault : Kind → Bool
  | .array | .geoPoint | .generic => false
  | _ => true

/-- A kind as a JSON value. -/
def toJson : Kind → Json
  | .dateTime => .string "date_time"
  | .enum name => .single "enum" (.string name)
  | kind => .string kind.label

@[simp] theorem inputName_enum (name : String) : (Kind.enum name).inputName = name := rfl

/-- The input name of every built-in kind is reserved. -/
theorem isReserved_inputName {kind : Kind} (h : kind ∈ builtin) :
    isReserved kind.inputName = true := by
  simp only [isReserved, List.contains_eq_mem, decide_eq_true_eq]
  exact List.mem_map_of_mem h

end Kind

end Criteria
