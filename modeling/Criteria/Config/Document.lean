import Criteria.Json.Basic

/-!
# Documents

A configuration may be written in several formats. Each is read into a `Document`, a tree of
scalars, lists and tables, and what the tree means is decided in one place. A table keeps all its
entries, also those under the same key.
-/

namespace Criteria.Config

/-- A format of configurations. -/
inductive Format where
  | json
  | toml
  | yaml
deriving DecidableEq, Repr

/-- A document of any format. -/
inductive Document where
  | null
  | bool (value : Bool)
  | integer (value : Int)
  /-- A number that is no integer. -/
  | fraction
  | text (value : String)
  | list (items : List Document)
  | table (entries : List (String × Document))
deriving Repr, Inhabited

namespace Document

mutual

/-- A JSON value as a document. -/
def ofJson : Json → Document
  | .null => .null
  | .bool value => .bool value
  | .number (.int value) => .integer value
  | .number (.double _) => .fraction
  | .string value => .text value
  | .array items => .list (ofItems items)
  | .object members => .table (ofMembers members)

/-- JSON values as documents. -/
def ofItems : List Json → List Document
  | [] => []
  | item :: items => ofJson item :: ofItems items

/-- Members of a JSON object as entries. -/
def ofMembers : List (String × Json) → List (String × Document)
  | [] => []
  | (key, value) :: members => (key, ofJson value) :: ofMembers members

end

end Document

end Criteria.Config
