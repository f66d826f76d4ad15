import Criteria.Operator

/-!
# Filter trees

A `Filter` is what is left of a client's filter document once it has been checked: conjunctions,
disjunctions and negations of leaves. A leaf applies a built-in operator to a declared field, or a
custom operator, under its key, to a field it is registered for.

The empty conjunction is the filter that constrains nothing; the empty disjunction matches nothing.
-/

namespace Criteria

/-- A checked filter. -/
inductive Filter where
  /-- All parts hold. -/
  | all (parts : List Filter)
  /-- At least one part holds. -/
  | any (parts : List Filter)
  /-- The part does not hold. -/
  | not (part : Filter)
  /-- A built-in operator on a field. -/
  | field (name : String) (op : Operator) (operand : Json)
  /-- A custom operator on a field. -/
  | custom (name : String) (key : String) (operand : Json)
deriving Repr

namespace Filter

/-- The filter that constrains nothing. -/
def identity : Filter := .all []

instance : Inhabited Filter := ⟨identity⟩

/-- Whether a filter is the one that constrains nothing. -/
def isIdentity : Filter → Bool
  | .all [] => true
  | _ => false

/-- Only the empty conjunction is the identity. -/
theorem isIdentity_iff {filter : Filter} : filter.isIdentity = true ↔ filter = identity := by
  cases filter with
  | all parts => cases parts <;> simp [isIdentity, identity]
  | _ => simp [isIdentity, identity]

/-! ### Measures -/

mutual

/-- How deep conjunctions, disjunctions and negations nest; a leaf has depth zero. -/
def depth : Filter → Nat
  | .all parts => 1 + maxDepth parts
  | .any parts => 1 + maxDepth parts
  | .not part => 1 + depth part
  | .field .. => 0
  | .custom .. => 0

/-- The greatest depth in a list, zero for an empty one. -/
def maxDepth : List Filter → Nat
  | [] => 0
  | part :: parts => max (depth part) (maxDepth parts)

end

mutual

/-- The number of leaves. -/
def predicateCount : Filter → Nat
  | .all parts => predicateCounts parts
  | .any parts => predicateCounts parts
  | .not part => predicateCount part
  | .field .. => 1
  | .custom .. => 1

/-- The number of leaves of a list. -/
def predicateCounts : List Filter → Nat
  | [] => 0
  | part :: parts => predicateCount part + predicateCounts parts

end

/-! ### As a value -/

/-- A leaf as a value. -/
def leafJson (name operator : String) (operand : Json) : Json :=
  .object [("field", .string name), ("operator", .string operator), ("value", operand)]

mutual

/-- A filter as a JSON value that names each node by its sort. -/
def toJson : Filter → Json
  | .all parts => .single "and" (.array (toJsons parts))
  | .any parts => .single "or" (.array (toJsons parts))
  | .not part => .single "not" (toJson part)
  | .field name op operand => .single "field" (leafJson name op.word operand)
  | .custom name key operand => .single "custom" (leafJson name key operand)

/-- A list of filters as values. -/
def toJsons : List Filter → List Json
  | [] => []
  | part :: parts => toJson part :: toJsons parts

end

end Filter

end Criteria
