import Criteria.Native.Error
import Criteria.Order.Basic
import Criteria.Scope
import Criteria.Sql.Quoting

/-!
# Compiling orderings

Each clause becomes a native one with the field's column. Where nulls go is kept for adapters that
can say it and dropped for the others. Clauses keep their order and are never merged.

`Sorting.sql?` is the body of an `ORDER BY`, `Sorting.document` the list of sort keys of a search.
-/

namespace Criteria

/-- A compiled clause. -/
structure SortKey where
  /-- The column in the adapter's spelling. -/
  column : String
  /-- The direction. -/
  direction : Direction
  /-- Where nulls go, `none` if nothing is said about them. -/
  nulls : Option Nulls
deriving DecidableEq, Repr

/-- A compiled ordering. -/
structure Sorting where
  /-- The adapter it is for. -/
  adapter : Adapter
  /-- Its clauses in order. -/
  keys : List SortKey
deriving Repr

/-- Whether an adapter can say where nulls go. -/
def Adapter.ordersNulls : Adapter → Bool
  | .sql .postgres | .sql .sqlite | .search => true
  | .sql .mysql | .sql .mssql => false

namespace SortKey

/-- The clause of a field. -/
def ofField (adapter : Adapter) (field : Field) (direction : Direction) (nulls : Nulls) :
    SortKey where
  column := adapter.quote field.reference
  direction := direction
  nulls := if nulls = .unspecified || !adapter.ordersNulls then none else some nulls

/-- The keyword for a direction. -/
def directionKeyword : Direction → String
  | .ascending => "ASC"
  | .descending => "DESC"

/-- The SQL of a clause. -/
def sql (key : SortKey) : String :=
  let plain := key.column ++ " " ++ directionKeyword key.direction
  match key.nulls with
  | some .first => plain ++ " NULLS FIRST"
  | some .last => plain ++ " NULLS LAST"
  | _ => plain

/-- Where the search index puts documents without the field. -/
def missing : Option Nulls → Json.Members
  | some .first => [("missing", .string "_first")]
  | some .last => [("missing", .string "_last")]
  | _ => []

/-- The sort key of the search index. -/
def document (key : SortKey) : Json :=
  .single key.column (.object (("order", .string key.direction.word) :: missing key.nulls))

/-- A clause as a value. -/
def toJson (key : SortKey) : Json :=
  .object
    [("column", .string key.column), ("direction", .string key.direction.word),
     ("nulls", .ofOption (key.nulls.map fun nulls => .string nulls.word))]

end SortKey

namespace Sorting

/-- Whether there are no clauses. -/
def isEmpty (sorting : Sorting) : Bool := sorting.keys.isEmpty

/-- The body of an `ORDER BY`, `none` without clauses and for the search index. -/
def sql? (sorting : Sorting) : Option String :=
  if sorting.isEmpty || !sorting.adapter.isSql then none
  else some (String.intercalate ", " (sorting.keys.map SortKey.sql))

/-- The sort keys of a search. -/
def document (sorting : Sorting) : Json := .array (sorting.keys.map SortKey.document)

/-- A compiled ordering as a value. -/
def toJson (sorting : Sorting) : Json :=
  .object
    [("adapter", .string sorting.adapter.name),
     ("clauses", .array (sorting.keys.map SortKey.toJson))]

end Sorting

namespace Order

/-- Compiles a clause. The field must be sortable, for a clause may have been built by hand. -/
def compileClause (scope : Scope) (clause : OrderClause) : Except CompileError SortKey :=
  match scope.field? clause.field with
  | none => .error (.unknownField scope.entity clause.field)
  | some declared =>
    if declared.sortable then
      .ok (SortKey.ofField scope.adapter declared clause.direction clause.nulls)
    else .error (.notSortable scope.entity clause.field)

/-- Compiles an ordering. -/
def compile (scope : Scope) (clauses : List OrderClause) : Except CompileError Sorting := do
  return ⟨scope.adapter, ← clauses.mapM (compileClause scope)⟩

end Order

end Criteria
