import Criteria.Json.Basic

/-!
# Orderings

An ordering is a list of clauses. Each names a field, a direction, and where nulls go; by default
the backend decides about those.
-/

namespace Criteria

/-- A direction. -/
inductive Direction where
  | ascending
  | descending
deriving DecidableEq, Repr, Inhabited

/-- Where nulls go. -/
inductive Nulls where
  | first
  | last
  /-- Where the backend puts them. -/
  | unspecified
deriving DecidableEq, Repr

/-- One clause of an ordering. -/
structure OrderClause where
  /-- The field ordered by. -/
  field : String
  /-- The direction. -/
  direction : Direction
  /-- Where nulls go. -/
  nulls : Nulls
deriving DecidableEq, Repr

/-- The word for a direction. -/
def Direction.word : Direction → String
  | ascending => "asc"
  | descending => "desc"

/-- The word for a position of nulls. -/
def Nulls.word : Nulls → String
  | first => "first"
  | last => "last"
  | unspecified => "default"

/-- The direction with a word. -/
def Direction.ofWord? : String → Option Direction
  | "asc" => some .ascending
  | "desc" => some .descending
  | _ => none

/-- The position of nulls with a word. -/
def Nulls.ofWord? : String → Option Nulls
  | "first" => some .first
  | "last" => some .last
  | "default" => some .unspecified
  | _ => none

/-- A clause as a value. -/
def OrderClause.toJson (clause : OrderClause) : Json :=
  .object
    [("field", .string clause.field), ("direction", .string clause.direction.word),
     ("nulls", .string clause.nulls.word)]

end Criteria
