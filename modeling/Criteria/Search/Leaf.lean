import Criteria.Native.Error
import Criteria.Search.Query
import Criteria.Search.Wildcard

/-!
# Leaves on the search index

A leaf becomes a query on the field's path. Nothing is bound: the operand stands in the document.
Membership in an empty list matches nothing, its negation everything, and so does the demand for no
elements at all.

Nearness to a point both restricts to the distance and ranks by it, because ranking alone would not
restrict anything.
-/

namespace Criteria.Search

/-- The operand as a text. -/
def expectText (field : Field) (op : Operator) (operand : Json) : Except CompileError (List Char) :=
  match operand with
  | .string text => .ok text.toList
  | _ => .error (invalidLeaf field op .notText)

/-- The operand as a list. -/
def expectList (field : Field) (op : Operator) (operand : Json) : Except CompileError (List Json) :=
  match operand with
  | .array items => .ok items
  | _ => .error (invalidLeaf field op .notList)

/-- A value as a point. -/
def expectPoint (field : Field) (op : Operator) (value : Option Json) : Except CompileError Point :=
  match (value.bind (Json.get? "lat")).bind Json.asDouble?,
    (value.bind (Json.get? "lon")).bind Json.asDouble? with
  | some latitude, some longitude => .ok ⟨latitude, longitude⟩
  | _, _ => .error (invalidLeaf field op .noCoordinates)

/-- The distance under a key of the operand. -/
def expectDistance (field : Field) (op : Operator) (operand : Json) (key : String) :
    Except CompileError String :=
  match (operand.get? key).bind Json.asString? with
  | some text => .ok text
  | none => .error (invalidLeaf field op (.noDistance key))

/-- A query on a list, with another one in its place if the list is empty. -/
def unlessEmpty (empty : Query) (items : List Json) (query : Query) : Query :=
  if items.isEmpty then empty else query

/-- The query of a leaf. -/
def leaf (field : Field) (op : Operator) (operand : Json) : Except CompileError Query :=
  let path := field.reference
  match op with
  | .eq => .ok (.term path operand)
  | .neq => .ok (Query.negation (.term path operand))
  | .gt => .ok (.range path [(.above, operand)])
  | .gte => .ok (.range path [(.atLeast, operand)])
  | .lt => .ok (.range path [(.below, operand)])
  | .lte => .ok (.range path [(.atMost, operand)])
  | .between => do
    match ← expectList field op operand with
    | [low, high] => .ok (.range path [(.atLeast, low), (.atMost, high)])
    | _ => .error (invalidLeaf field op .notRange)
  | .isIn | .overlaps => do
    let items ← expectList field op operand
    return unlessEmpty .nothing items (.terms path items)
  | .notIn => do
    let items ← expectList field op operand
    return unlessEmpty .everything items (Query.negation (.terms path items))
  | .like => do
    let pattern ← expectText field op operand
    return .wildcard path (String.ofList (ofLike pattern)) false
  | .ilike => do
    let pattern ← expectText field op operand
    return .wildcard path (String.ofList (ofLike pattern)) true
  | .contains =>
    if field.kind = .array then do
      let items ← expectList field op operand
      return unlessEmpty .everything items (.bool (items.map (.term path)) [] [] none)
    else do
      let text ← expectText field op operand
      return .wildcard path (String.ofList ('*' :: escapeWildcards text ++ ['*'])) false
  | .endsWith => do
    let text ← expectText field op operand
    return .wildcard path (String.ofList ('*' :: escapeWildcards text)) false
  | .startsWith => do
    let text ← expectText field op operand
    return .startsWith path (String.ofList text)
  | .isNull =>
    match operand with
    | .bool true => .ok (Query.negation (.present path))
    | .bool false => .ok (.present path)
    | _ => .error (invalidLeaf field op .notBoolean)
  | .fullText => .ok (.fullText path operand)
  | .phrase => .ok (.phrase path operand)
  | .near => do
    let origin ← expectPoint field op (some operand)
    let pivot ← expectDistance field op operand "pivot"
    return .bool [.withinDistance path origin pivot] [.nearness path origin pivot] [] none
  | .withinDistance => do
    let center ← expectPoint field op (some operand)
    let distance ← expectDistance field op operand "distance"
    return .withinDistance path center distance
  | .withinBounds => do
    let topLeft ← expectPoint field op (operand.get? "top_left")
    let bottomRight ← expectPoint field op (operand.get? "bottom_right")
    return .withinBounds path topLeft bottomRight

end Criteria.Search
