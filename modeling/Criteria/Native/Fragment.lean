import Criteria.Search.Leaf
import Criteria.Sql.Leaf

/-!
# Fragments and predicates

A fragment is a part of a predicate in the language of one adapter: a SQL condition or a search
query. Fragments combine under an adapter, which accepts only its own language.

A `Predicate` is a compiled filter: its fragment and the values its placeholders refer to.
-/

namespace Criteria

/-- A part of a predicate in the language of an adapter. -/
inductive Fragment where
  /-- A SQL condition. -/
  | sql (condition : Sql.Condition)
  /-- A search query. -/
  | document (query : Search.Query)
deriving Repr

namespace Fragment

/-- The word for the language of a fragment. -/
def language : Fragment → String
  | .sql _ => "sql"
  | .document _ => "document"

/-- Whether a fragment is in the language of an adapter. -/
def accepts : Adapter → Fragment → Bool
  | .sql _, .sql _ => true
  | .search, .document _ => true
  | _, _ => false

/-- A fragment as a SQL condition. -/
def expectCondition (dialect : Dialect) : Fragment → Except CompileError Sql.Condition
  | .sql condition => .ok condition
  | .document query => .error (.wrongFragment (.sql dialect) (Fragment.document query).language)

/-- A fragment as a search query. -/
def expectQuery : Fragment → Except CompileError Search.Query
  | .document query => .ok query
  | .sql condition => .error (.wrongFragment .search (Fragment.sql condition).language)

/-- Matches everything. -/
def always : Adapter → Fragment
  | .sql _ => .sql (.constant true)
  | .search => .document .everything

/-- Matches nothing. -/
def never : Adapter → Fragment
  | .sql _ => .sql (.constant false)
  | .search => .document .nothing

/-- The conjunction of fragments. -/
def all (adapter : Adapter) (parts : List Fragment) : Except CompileError Fragment :=
  match adapter with
  | .sql dialect => do return .sql (Sql.Condition.allOf (← parts.mapM (expectCondition dialect)))
  | .search => do return .document (Search.Query.allOf (← parts.mapM expectQuery))

/-- The disjunction of fragments. -/
def any (adapter : Adapter) (parts : List Fragment) : Except CompileError Fragment :=
  match adapter with
  | .sql dialect => do return .sql (Sql.Condition.anyOf (← parts.mapM (expectCondition dialect)))
  | .search => do return .document (Search.Query.anyOf (← parts.mapM expectQuery))

/-- The negation of a fragment. -/
def negate (adapter : Adapter) (part : Fragment) : Except CompileError Fragment :=
  match adapter with
  | .sql dialect => do return .sql (.not (← expectCondition dialect part))
  | .search => do return .document (Search.Query.negation (← expectQuery part))

/-- The fragment of a leaf when `bound` values are bound before it, and the values it binds. -/
def leaf (adapter : Adapter) (bound : Nat) (field : Field) (op : Operator) (operand : Json) :
    Except CompileError (Fragment × List Json) :=
  match adapter with
  | .sql dialect => do
    let (condition, values) ← Sql.leaf dialect bound field op operand
    return (.sql condition, values)
  | .search => do return (.document (← Search.leaf field op operand), [])

/-! ### Fragments that do not depend on what is matched -/

/-- Nothing is demanded where all of no fragments have to match. -/
@[simp] theorem all_nil (adapter : Adapter) : all adapter [] = .ok (always adapter) := by
  cases adapter <;> rfl

/-- Nothing matches one of no fragments. -/
@[simp] theorem any_nil (adapter : Adapter) : any adapter [] = .ok (never adapter) := by
  cases adapter <;> rfl

/-- Nothing is in the empty list. -/
theorem leaf_isIn_nil (adapter : Adapter) (bound : Nat) (field : Field) :
    leaf adapter bound field .isIn (.array []) = .ok (never adapter, []) := by
  cases adapter <;> rfl

/-- Everything is outside the empty list. -/
theorem leaf_notIn_nil (adapter : Adapter) (bound : Nat) (field : Field) :
    leaf adapter bound field .notIn (.array []) = .ok (always adapter, []) := by
  cases adapter <;> rfl

/-! ### Written fragments -/

/-- The SQL text of a fragment under an adapter, `none` if it is not SQL. -/
def sqlText? (adapter : Adapter) (fragment : Fragment) : Option String :=
  match adapter, fragment with
  | .sql dialect, .sql condition => some (condition.text dialect)
  | _, _ => none

/-- The document of a fragment, `none` if it is SQL. -/
def document? : Fragment → Option Json
  | .document query => some query.toJson
  | .sql _ => none

/-- A fragment as a value that names its language. -/
def toJson (adapter : Adapter) (fragment : Fragment) : Json :=
  match fragment with
  | .document query => .single "document" query.toJson
  | .sql _ => .single "sql" (.ofOption ((fragment.sqlText? adapter).map .string))

end Fragment

/-- A compiled filter. -/
structure Predicate where
  /-- The adapter it is for. -/
  adapter : Adapter
  /-- What it says. -/
  fragment : Fragment
  /-- The values its placeholders refer to, in order. -/
  params : List Json
deriving Repr

namespace Predicate

/-- The SQL text, `none` for a search query. -/
def sql? (predicate : Predicate) : Option String := predicate.fragment.sqlText? predicate.adapter

/-- The query document, `none` for SQL. -/
def document? (predicate : Predicate) : Option Json := predicate.fragment.document?

/-- A predicate as a value. -/
def toJson (predicate : Predicate) : Json :=
  .object
    [("adapter", .string predicate.adapter.name),
     ("fragment", predicate.fragment.toJson predicate.adapter),
     ("params", .array predicate.params)]

end Predicate

end Criteria
