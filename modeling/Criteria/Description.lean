import Criteria.Engine
import Criteria.Text.Visible

/-!
# Descriptions

What an engine and its parts look like in a log: a line with the names and the values of what was
configured. Declarations are left out, and of custom filters only the keys are shown.
-/

namespace Criteria

/-- A record: its name, and its entries between braces. -/
def describeRecord (name : String) (entries : List String) : String :=
  name ++ " \x7b " ++ ", ".intercalate entries ++ " \x7d"

/-- An entry of a record. -/
def describeEntry (name value : String) : String := name ++ ": " ++ value

/-- An adapter in a description. -/
def Adapter.description : Adapter → String
  | .sql .postgres => "Postgres"
  | .sql .mysql => "MySql"
  | .sql .sqlite => "Sqlite"
  | .sql .mssql => "MsSql"
  | .search => "Search"

/-- The limits in a description. -/
def Limits.description (limits : Limits) : String :=
  describeRecord "LimitsConfig"
    [describeEntry "max_depth" (toString limits.maxDepth),
     describeEntry "max_input_bytes" (toString limits.maxInputBytes),
     describeEntry "max_predicates" (toString limits.maxPredicates),
     describeEntry "max_list_len" (toString limits.maxListLength),
     describeEntry "max_order_clauses" (toString limits.maxOrderClauses)]

/-- The key of a custom filter in a description. -/
def describeKey (key : String × String × String) : String :=
  "(" ++ ", ".intercalate ([key.1, key.2.1, key.2.2].map Text.shown) ++ ")"

/-- The custom filters in a description. -/
def CustomFilters.description (custom : CustomFilters) : String :=
  let keys := ", ".intercalate (custom.keys.map describeKey)
  describeRecord "CustomFilters" [describeEntry "keys" ("[" ++ keys ++ "]")]

/-- An engine in a description. -/
def Engine.description (engine : Engine) : String :=
  describeRecord "FilterEngine"
    [describeEntry "adapter" engine.adapter.description,
     describeEntry "limits" engine.limits.description,
     describeEntry "custom" engine.custom.description,
     ".."]

end Criteria
