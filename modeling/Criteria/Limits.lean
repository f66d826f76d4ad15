/-!
# Limits

Bounds on what a client may ask for. They only refuse: what is accepted never depends on them.
-/

namespace Criteria

/-- Bounds on the size of a request. -/
structure Limits where
  /-- How deep `_and`, `_or` and `_not` may nest. -/
  maxDepth : Nat := 32
  /-- How many bytes the text of a filter may have. -/
  maxInputBytes : Nat := 65536
  /-- How many operators a filter may apply. -/
  maxPredicates : Nat := 256
  /-- How many elements an operand may list. -/
  maxListLength : Nat := 1000
  /-- How many clauses an ordering may have. -/
  maxOrderClauses : Nat := 16
deriving DecidableEq, Repr, Inhabited

end Criteria
