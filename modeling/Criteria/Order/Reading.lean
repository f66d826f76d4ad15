import Criteria.Order.Basic
import Criteria.Scope

/-!
# Reading orderings

A client writes an ordering as a list of objects with one field each, or as one object whose
members are the clauses in order. The direction of a field is a word, or an object with a direction
and a position of nulls:

    [{"age": "desc_nulls_last"}, {"name": {"direction": "asc", "nulls": "first"}}]

First all entries are found, then they are counted, then each is checked in turn.
-/

namespace Criteria.Order

/-- An entry of an ordering: where it stands, its field, and what is said of it. -/
structure Entry where
  /-- Where the entry stands. -/
  path : Path
  /-- The field it names. -/
  field : String
  /-- What is said of the field. -/
  value : Json
deriving Repr

/-- The entries of a list, the first of them at `index`. -/
def listEntries (index : Nat) : List Json → Except RequestError (List Entry)
  | [] => .ok []
  | .object [(field, value)] :: items => do
    return ⟨[.index index], field, value⟩ :: (← listEntries (index + 1) items)
  | .object members :: _ => .error (.malformed [.index index] (.notSingleField members.length))
  | _ :: _ => .error (.malformed [.index index] .notObject)

/-- The entries of an ordering. -/
def entries : Json → Except RequestError (List Entry)
  | .null => .ok []
  | .array items => listEntries 0 items
  | .object members => .ok (members.map fun (field, value) => ⟨[], field, value⟩)
  | _ => .error (.malformed [] .notOrdering)

/-- Reads a direction, which may have a position of nulls appended. -/
def readShorthand (text : String) : Except ShapeFault (Direction × Nulls) :=
  match Text.lower text with
  | "asc" => .ok (.ascending, .unspecified)
  | "desc" => .ok (.descending, .unspecified)
  | "asc_nulls_first" => .ok (.ascending, .first)
  | "asc_nulls_last" => .ok (.ascending, .last)
  | "desc_nulls_first" => .ok (.descending, .first)
  | "desc_nulls_last" => .ok (.descending, .last)
  | _ => .error (.unknownDirection text)

/-- Reads the direction of an object, ascending if it gives none. -/
def readDirection : Option Json → Except ShapeFault Direction
  | none | some .null => .ok .ascending
  | some (.string text) =>
    match readShorthand text with
    | .ok (direction, .unspecified) => .ok direction
    | _ => .error (.unknownDirection text)
  | some _ => .error .directionNotText

/-- Reads the position of nulls of an object. -/
def readNulls : Option Json → Except ShapeFault Nulls
  | none | some .null => .ok .unspecified
  | some (.string text) =>
    match Nulls.ofWord? (Text.lower text) with
    | some nulls => .ok nulls
    | none => .error (.unknownNulls text)
  | some _ => .error .nullsNotText

/-- Reads what is said of a field. -/
def readSpec : Json → Except ShapeFault (Direction × Nulls)
  | .string text => readShorthand text
  | .object members => do
    let direction ← readDirection (members.lookup "direction")
    let nulls ← readNulls (members.lookup "nulls")
    return (direction, nulls)
  | _ => .error .notDirection

/-- Reads one entry. -/
def readEntry (scope : Scope) (entry : Entry) : Except RequestError OrderClause :=
  match scope.field? entry.field with
  | none => .error (.unknownField scope.entity entry.field)
  | some declared =>
    if !declared.sortable then .error (.notSortable scope.entity entry.field)
    else
      match readSpec entry.value with
      | .ok (direction, nulls) => .ok ⟨entry.field, direction, nulls⟩
      | .error fault => .error (.malformed (entry.path ++ [.key entry.field]) fault)

/-- Reads an ordering. `null` has no clauses. -/
def read (scope : Scope) (document : Json) : Except RequestError (List OrderClause) := do
  let found ← entries document
  if scope.limits.maxOrderClauses < found.length then
    throw (.tooManyClauses found.length scope.limits.maxOrderClauses)
  found.mapM (readEntry scope)

end Criteria.Order
