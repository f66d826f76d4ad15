import Criteria.Calendar
import Criteria.Limits
import Criteria.Registry
import Criteria.Request.Error
import Criteria.Schema

/-!
# Operands

Which operands an operator takes on a field. The shape is decided by the operator and the kind; the
values inside are checked against the kind. `null` is never a value, for it has an operator of its
own.

Operators on text take any text. Elements of array operators may be anything but `null`. The
operators on points take objects: a point is an object with numeric `lat` and `lon` on the globe,
and a distance is a number with an optional unit, such as `10km`.
-/

namespace Criteria.Operand

/-! ### Single values -/

/-- The value is not `null`. -/
def checkPresent (value : Json) : Except ValueFault Unit :=
  if value.isNull then .error .null else .ok ()

/-- The value is one of an enum. An enum that lists no values takes every text. -/
def checkEnum (registry : Registry) (enum : String) (value : Json) : Except ValueFault Unit :=
  match value with
  | .string text =>
    match registry.enumValues? enum with
    | some values =>
      if values.contains text then .ok () else .error (.notEnumValue text enum values)
    | none => .ok ()
  | _ => .error (.notEnumText enum)

/-- Whether a value that is not `null` belongs to a kind other than an enum. -/
def isOfKind (kind : Kind) (value : Json) : Bool :=
  match kind with
  | .id => value.asString?.isSome || value.asInt?.isSome
  | .string => value.asString?.isSome
  | .integer => value.asInt?.isSome
  | .float => value.asDouble?.isSome
  | .boolean => value.asBool?.isSome
  | .dateTime => value.asString?.any Calendar.isDateTime
  | .date => value.asString?.any Calendar.isDate
  | .time => value.asString?.any Calendar.isTime
  | .enum _ | .array | .geoPoint | .generic => true

/-- The value is one of a kind. -/
def checkValue (registry : Registry) (kind : Kind) (value : Json) : Except ValueFault Unit := do
  checkPresent value
  match kind with
  | .enum name => checkEnum registry name value
  | _ => if isOfKind kind value then .ok () else .error (.notOfKind kind)

/-! ### Lists -/

/-- Checks the elements of a list in turn, the first of them at `index`. -/
def checkElements (check : Json → Except ValueFault Unit) (index : Nat) :
    List Json → Except OperandFault Unit
  | [] => .ok ()
  | item :: items => do
    (check item).mapError (.element index)
    checkElements check (index + 1) items

/-! ### Points and distances -/

/-- The units of distances. -/
def distanceUnits : List String := ["", "mm", "cm", "m", "km", "in", "ft", "yd", "mi", "nmi", "NM"]

/-- A decimal number with an optional unit. -/
def isDistance (text : String) : Bool :=
  let whole := text.toList.takeWhile Char.isDigit
  let rest := text.toList.dropWhile Char.isDigit
  let isUnit (chars : List Char) : Bool := distanceUnits.contains (String.ofList chars)
  !whole.isEmpty &&
    match rest with
    | '.' :: rest =>
      !(rest.takeWhile Char.isDigit).isEmpty && isUnit (rest.dropWhile Char.isDigit)
    | _ => isUnit rest

/-- The latitude and longitude of a point. -/
def coordinates? (value : Json) : Option (Binary64 × Binary64) := do
  let latitude ← (← value.get? "lat").asDouble?
  let longitude ← (← value.get? "lon").asDouble?
  return (latitude, longitude)

/-- The value is a point on the globe. -/
def checkPoint (what : String) (value : Json) : Except OperandFault Unit :=
  match coordinates? value with
  | some (latitude, longitude) =>
    if latitude.absLe 90 && longitude.absLe 180 then .ok () else .error (.offGlobe what)
  | none => .error (.noCoordinates what)

/-- The value has a distance under a key. -/
def checkDistance (key : String) (value : Json) : Except OperandFault Unit :=
  match (value.get? key).bind Json.asString? with
  | some text => if isDistance text then .ok () else .error (.notDistance text)
  | none => .error (.noDistance key)

/-- The operand of an operator on points. -/
def checkStructured (op : Operator) (value : Json) : Except OperandFault Unit := do
  if value.asObject?.isNone then throw .notObject
  match op with
  | .near =>
    checkPoint "origin" value
    checkDistance "pivot" value
  | .withinDistance =>
    checkPoint "center" value
    checkDistance "distance" value
  | _ =>
    checkPoint "top_left" (.ofOption (value.get? "top_left"))
    checkPoint "bottom_right" (.ofOption (value.get? "bottom_right"))

/-! ### Operands -/

/-- Whether an operator takes any text, whatever the kind. -/
def takesText (op : Operator) : Bool := op.category = .pattern || op.category = .fullText

/-- The operand fits an operator on a field. -/
def check (registry : Registry) (limits : Limits) (field : Field) (op : Operator)
    (value : Json) : Except OperandFault Unit :=
  match op.shape field.kind with
  | .flag => if value.asBool?.isSome then .ok () else .error .notFlag
  | .scalar =>
    if takesText op then if value.asString?.isSome then .ok () else .error .notText
    else (checkValue registry field.kind value).mapError .value
  | .list =>
    match value with
    | .array items =>
      if limits.maxListLength < items.length then
        .error (.tooLong items.length limits.maxListLength)
      else if field.kind = .array then checkElements checkPresent 0 items
      else checkElements (checkValue registry field.kind) 0 items
    | _ => .error .notList
  | .range =>
    match value with
    | .array [low, high] => do
      (checkValue registry field.kind low).mapError .low
      (checkValue registry field.kind high).mapError .high
    | _ => .error .notRange
  | .structured => checkStructured op value

end Criteria.Operand
