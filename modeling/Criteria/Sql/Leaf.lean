import Criteria.Native.Error
import Criteria.Sql.Condition
import Criteria.Sql.Pattern

/-!
# Leaves in SQL

A leaf becomes a test of the field's column, together with the values that the test binds, in the
order of their placeholders. Membership in an empty list is a constant: nothing is in it and
everything is outside it.

The operand has been checked before; what is checked here again is only what the test needs, for
leaves that were built by hand.
-/

namespace Criteria.Sql

/-- A condition and the values it binds. -/
abbrev Bound := Condition × List Json

/-- The failure of an operator that a dialect lacks. -/
def unsupportedLeaf (dialect : Dialect) (field : Field) (op : Operator) : CompileError :=
  .unsupportedOperator field.name op.key field.kind (.sql dialect)

/-- A test against the operand as its only parameter. -/
def bindOne (bound : Nat) (field : Field) (operand : Json) (test : Nat → Test) : Bound :=
  (.test field.reference (test (bound + 1)), [operand])

/-- Membership in a list, or the lack of it. -/
def membership (bound : Nat) (field : Field) (op : Operator) (positive : Bool) (operand : Json) :
    Except CompileError Bound :=
  match operand with
  | .array [] => .ok (.constant (!positive), [])
  | .array items =>
    .ok (.test field.reference (.among positive (List.range' (bound + 1) items.length)), items)
  | _ => .error (invalidLeaf field op .notList)

/-- The literal match of a text at a place. -/
def literalMatch (dialect : Dialect) (bound : Nat) (field : Field) (op : Operator)
    (placement : Placement) (operand : Json) : Except CompileError Bound :=
  match operand with
  | .string text =>
    .ok (bindOne bound field (.string (literalPattern dialect placement text)) .likeEscaped)
  | _ => .error (invalidLeaf field op .notText)

/-- An operator on arrays, which only one dialect has. -/
def arrayTest (dialect : Dialect) (bound : Nat) (field : Field) (op : Operator) (operand : Json)
    (test : Nat → Test) : Except CompileError Bound :=
  if dialect = .postgres then .ok (bindOne bound field operand test)
  else .error (unsupportedLeaf dialect field op)

/-- The condition of a leaf when `bound` values are bound before it, and the values it binds. -/
def leaf (dialect : Dialect) (bound : Nat) (field : Field) (op : Operator) (operand : Json) :
    Except CompileError Bound :=
  match op with
  | .eq => .ok (bindOne bound field operand (.compare .equal))
  | .neq => .ok (bindOne bound field operand (.compare .unequal))
  | .gt => .ok (bindOne bound field operand (.compare .above))
  | .gte => .ok (bindOne bound field operand (.compare .atLeast))
  | .lt => .ok (bindOne bound field operand (.compare .below))
  | .lte => .ok (bindOne bound field operand (.compare .atMost))
  | .isIn => membership bound field op true operand
  | .notIn => membership bound field op false operand
  | .like => .ok (bindOne bound field operand .like)
  | .ilike => .ok (bindOne bound field operand .likeAnyCase)
  | .contains =>
    if field.kind = .array then arrayTest dialect bound field op operand .hasAll
    else literalMatch dialect bound field op .within operand
  | .startsWith => literalMatch dialect bound field op .atStart operand
  | .endsWith => literalMatch dialect bound field op .atEnd operand
  | .between =>
    match operand with
    | .array [low, high] =>
      .ok (.test field.reference (.between (bound + 1) (bound + 2)), [low, high])
    | .array _ => .error (invalidLeaf field op .notRange)
    | _ => .error (invalidLeaf field op .notList)
  | .isNull =>
    match operand with
    | .bool positive => .ok (.test field.reference (.isNull positive), [])
    | _ => .error (invalidLeaf field op .notBoolean)
  | .overlaps => arrayTest dialect bound field op operand .overlaps
  | .fullText | .phrase | .near | .withinDistance | .withinBounds =>
    .error (unsupportedLeaf dialect field op)

end Criteria.Sql
