import Criteria.Filter.Operand
import Criteria.Proofs.Outcome

/-!
# Which operands pass the check

`Operand.check` branches on the shape that an operator's operand has on a field. Each lemma here
takes one of the branches and says exactly which operands pass it, so that what is proved of checked
operands is told by shape and does not unfold the check.

* `check_flag`, `check_text`, `check_scalar`, `check_list`, `check_range` — the plain shapes;
* `IsPoint`, `HasDistance` — what the operands of operators on points are made of;
* `check_near`, `check_withinDistance`, `check_withinBounds` — these operators;
* `HasForm`, `hasForm_of_check` — what passes has the form of its shape;
* `exists_check` — every operator takes some operand on every field.
-/

namespace Criteria.Operand

variable {registry : Registry} {limits : Limits} {field : Field} {op : Operator} {value : Json}

/-! ### Single values -/

theorem checkPresent_eq_ok : checkPresent value = .ok () ↔ value ≠ .null := by
  unfold checkPresent
  cases value <;> simp [Json.isNull]

/-- What the check asks of an element of a list: the elements of an array have no kind. -/
def checkItem (registry : Registry) (kind : Kind) (item : Json) : Except ValueFault Unit :=
  if kind = .array then checkPresent item else checkValue registry kind item

/-- The elements of a list pass when each of them does. -/
theorem checkElements_eq_ok {check : Json → Except ValueFault Unit} {items : List Json} :
    ∀ {index : Nat},
      checkElements check index items = .ok () ↔ ∀ item ∈ items, check item = .ok () := by
  induction items with
  | nil =>
    intro index
    simp [checkElements]
  | cons item items ih =>
    intro index
    rw [checkElements, check_bind_eq_ok, mapError_eq_ok, ih, List.forall_mem_cons]

/-! ### Points and distances -/

/-- The value has coordinates on the globe. -/
def IsPoint (value : Json) : Prop :=
  ∃ latitude longitude, coordinates? value = some (latitude, longitude) ∧
    latitude.absLe 90 = true ∧ longitude.absLe 180 = true

/-- The text under a key of a value. -/
def text? (key : String) (value : Json) : Option String := (value.get? key).bind Json.asString?

/-- The value has a distance under a key. -/
def HasDistance (key : String) (value : Json) : Prop :=
  ∃ text, text? key value = some text ∧ isDistance text = true

/-- The coordinates of a point are the numbers under its two keys. -/
theorem coordinates?_eq_some {latitude longitude : Binary64} :
    coordinates? value = some (latitude, longitude) ↔
      (value.get? "lat").bind Json.asDouble? = some latitude ∧
        (value.get? "lon").bind Json.asDouble? = some longitude := by
  simp only [coordinates?, Option.bind_eq_bind, Option.bind_eq_some_iff, Option.pure_def,
    Option.some.injEq, Prod.mk.injEq]
  constructor
  · rintro ⟨north, hnorth, _, hlatitude, east, heast, _, hlongitude, rfl, rfl⟩
    exact ⟨⟨north, hnorth, hlatitude⟩, east, heast, hlongitude⟩
  · rintro ⟨⟨north, hnorth, hlatitude⟩, east, heast, hlongitude⟩
    exact ⟨north, hnorth, latitude, hlatitude, east, heast, longitude, hlongitude, rfl, rfl⟩

theorem checkPoint_eq_ok {what : String} : checkPoint what value = .ok () ↔ IsPoint value := by
  unfold checkPoint IsPoint
  cases hcoordinates : coordinates? value with
  | none => simp
  | some pair =>
    obtain ⟨latitude, longitude⟩ := pair
    dsimp only
    rw [ite_eq_ok, Bool.and_eq_true]
    constructor
    · intro hglobe
      exact ⟨latitude, longitude, rfl, hglobe⟩
    · rintro ⟨_, _, heq, hglobe⟩
      obtain ⟨rfl, rfl⟩ := Prod.mk.inj (Option.some.inj heq)
      exact hglobe

theorem checkDistance_eq_ok {key : String} :
    checkDistance key value = .ok () ↔ HasDistance key value := by
  unfold checkDistance HasDistance text?
  cases (value.get? key).bind Json.asString? with
  | none => simp
  | some text =>
    dsimp only
    rw [ite_eq_ok]
    simp

/-- Only objects have coordinates. -/
theorem IsPoint.isObject (h : IsPoint value) : value.asObject?.isNone = false := by
  obtain ⟨latitude, longitude, hcoordinates, -⟩ := h
  cases value with
  | object members => rfl
  | _ => cases hcoordinates

/-! ### Shapes -/

theorem check_flag (hshape : op.shape field.kind = .flag) :
    check registry limits field op value = .ok () ↔ ∃ positive, value = .bool positive := by
  unfold check
  rw [hshape]
  dsimp only
  rw [ite_eq_ok]
  cases value <;> simp [Json.asBool?]

theorem check_text (hshape : op.shape field.kind = .scalar) (htext : takesText op = true) :
    check registry limits field op value = .ok () ↔ ∃ text, value = .string text := by
  unfold check
  rw [hshape]
  dsimp only
  rw [if_pos htext, ite_eq_ok]
  cases value <;> simp [Json.asString?]

theorem check_scalar (hshape : op.shape field.kind = .scalar) (htext : takesText op = false) :
    check registry limits field op value = .ok () ↔
      checkValue registry field.kind value = .ok () := by
  unfold check
  rw [hshape]
  dsimp only
  rw [if_neg (by simp [htext]), mapError_eq_ok]

theorem check_list (hshape : op.shape field.kind = .list) :
    check registry limits field op value = .ok () ↔
      ∃ items, value = .array items ∧ items.length ≤ limits.maxListLength ∧
        ∀ item ∈ items, checkItem registry field.kind item = .ok () := by
  unfold check
  rw [hshape]
  cases value with
  | array items =>
    simp only [Json.array.injEq, exists_eq_left', checkItem]
    -- a list that is too long is refused before its elements are looked at
    by_cases hlength : limits.maxListLength < items.length
    · simp [if_pos hlength, Nat.not_le.2 hlength]
    · rw [if_neg hlength]
      simp only [Nat.not_lt.1 hlength, true_and]
      split <;> exact checkElements_eq_ok
  | _ => simp

theorem check_range (hshape : op.shape field.kind = .range) :
    check registry limits field op value = .ok () ↔
      ∃ low high, value = .array [low, high] ∧ checkValue registry field.kind low = .ok () ∧
        checkValue registry field.kind high = .ok () := by
  unfold check
  rw [hshape]
  dsimp only
  split
  · next low high =>
    rw [check_bind_eq_ok, mapError_eq_ok, mapError_eq_ok]
    constructor
    · rintro ⟨hlow, hhigh⟩
      exact ⟨low, high, rfl, hlow, hhigh⟩
    · rintro ⟨_, _, heq, hlow, hhigh⟩
      cases heq
      exact ⟨hlow, hhigh⟩
  · next hother =>
    -- anything but two elements is refused
    constructor
    · intro h
      cases h
    · rintro ⟨low, high, rfl, -⟩
      exact absurd rfl (hother low high)

/-! ### Operators on points -/

/-- An object is asked for first, but coordinates are found in objects only. -/
theorem checkStructured_eq_ok {rest : Except OperandFault Unit}
    (hobject : rest = .ok () → value.asObject?.isNone = false) :
    (do if value.asObject?.isNone then throw OperandFault.notObject
        rest) = .ok () ↔ rest = .ok () := by
  by_cases hnone : value.asObject?.isNone = true
  · rw [if_pos hnone]
    constructor
    · intro h
      cases h
    · intro h
      rw [hobject h] at hnone
      cases hnone
  · rw [if_neg hnone]

theorem check_near :
    check registry limits field .near value = .ok () ↔
      IsPoint value ∧ HasDistance "pivot" value := by
  have hrest : (checkPoint "origin" value >>= fun _ => checkDistance "pivot" value) = .ok () ↔
      IsPoint value ∧ HasDistance "pivot" value := by
    rw [check_bind_eq_ok, checkPoint_eq_ok, checkDistance_eq_ok]
  rw [← hrest]
  exact checkStructured_eq_ok fun h => (hrest.1 h).1.isObject

theorem check_withinDistance :
    check registry limits field .withinDistance value = .ok () ↔
      IsPoint value ∧ HasDistance "distance" value := by
  have hrest : (checkPoint "center" value >>= fun _ => checkDistance "distance" value) = .ok () ↔
      IsPoint value ∧ HasDistance "distance" value := by
    rw [check_bind_eq_ok, checkPoint_eq_ok, checkDistance_eq_ok]
  rw [← hrest]
  exact checkStructured_eq_ok fun h => (hrest.1 h).1.isObject

/-- A missing corner is no point, so a checked box is an object with both corners. -/
theorem check_withinBounds :
    check registry limits field .withinBounds value = .ok () ↔
      ∃ topLeft bottomRight, value.get? "top_left" = some topLeft ∧ IsPoint topLeft ∧
        value.get? "bottom_right" = some bottomRight ∧ IsPoint bottomRight := by
  have hcorner : ∀ key, IsPoint (.ofOption (value.get? key)) ↔
      ∃ corner, value.get? key = some corner ∧ IsPoint corner := by
    intro key
    cases value.get? key with
    | none =>
      constructor
      · rintro ⟨_, _, hcoordinates, -⟩
        cases hcoordinates
      · rintro ⟨_, hnone, -⟩
        cases hnone
    | some corner => simp [Json.ofOption]
  have hrest : (checkPoint "top_left" (.ofOption (value.get? "top_left")) >>= fun _ =>
      checkPoint "bottom_right" (.ofOption (value.get? "bottom_right"))) = .ok () ↔
      ∃ topLeft bottomRight, value.get? "top_left" = some topLeft ∧ IsPoint topLeft ∧
        value.get? "bottom_right" = some bottomRight ∧ IsPoint bottomRight := by
    rw [check_bind_eq_ok, checkPoint_eq_ok, checkPoint_eq_ok, hcorner, hcorner]
    constructor
    · rintro ⟨⟨topLeft, htop, htopPoint⟩, bottomRight, hbottom, hbottomPoint⟩
      exact ⟨topLeft, bottomRight, htop, htopPoint, hbottom, hbottomPoint⟩
    · rintro ⟨topLeft, bottomRight, htop, htopPoint, hbottom, hbottomPoint⟩
      exact ⟨⟨topLeft, htop, htopPoint⟩, bottomRight, hbottom, hbottomPoint⟩
  rw [← hrest]
  refine checkStructured_eq_ok fun h => ?_
  obtain ⟨topLeft, -, htop, -⟩ := hrest.1 h
  cases value with
  | object members => rfl
  | _ => cases htop

/-! ### Forms -/

/-- A value has the form that a shape asks for, whatever the kind of the field. -/
def HasForm : OperandShape → Json → Prop
  | .scalar, value => value ≠ .null
  | .list, value => ∃ items, value = .array items
  | .range, value => ∃ low high, value = .array [low, high]
  | .flag, value => ∃ positive, value = .bool positive
  | .structured, value => ∃ members, value = .object members

theorem ne_null_of_checkValue {kind : Kind} (h : checkValue registry kind value = .ok ()) :
    value ≠ .null :=
  checkPresent_eq_ok.1 (check_bind_eq_ok.1 h).1

theorem isObject_of_checkStructured (h : checkStructured op value = .ok ()) :
    ∃ members, value = .object members := by
  cases value with
  | object members => exact ⟨members, rfl⟩
  | _ => cases h

/-- **What passes the check has the form of its shape.** -/
theorem hasForm_of_check (h : check registry limits field op value = .ok ()) :
    HasForm (op.shape field.kind) value := by
  cases hshape : op.shape field.kind with
  | flag => exact (check_flag hshape).1 h
  | scalar =>
    cases htext : takesText op with
    | true =>
      obtain ⟨text, rfl⟩ := (check_text hshape htext).1 h
      exact Json.noConfusion
    | false => exact ne_null_of_checkValue ((check_scalar hshape htext).1 h)
  | list =>
    obtain ⟨items, hitems, -⟩ := (check_list hshape).1 h
    exact ⟨items, hitems⟩
  | range =>
    obtain ⟨low, high, hbounds, -⟩ := (check_range hshape).1 h
    exact ⟨low, high, hbounds⟩
  | structured =>
    unfold check at h
    rw [hshape] at h
    exact isObject_of_checkStructured h

/-! ### Operands that pass -/

/-- The values of an enum, where it lists any, are not empty. -/
theorem enumValues?_ne_nil {name : String} {values : List String}
    (h : registry.enumValues? name = some values) : values ≠ [] := by
  unfold Registry.enumValues? at h
  split at h
  · split at h
    · cases h
    · next hne =>
      obtain rfl := Option.some.inj h
      simpa using hne
  · cases h

/-- Every kind has a value. -/
theorem exists_checkValue (registry : Registry) (kind : Kind) :
    ∃ value, checkValue registry kind value = .ok () := by
  cases kind with
  | id | string => exact ⟨.string "", rfl⟩
  | integer | float => exact ⟨.int 0, rfl⟩
  | boolean | array | geoPoint | generic => exact ⟨.bool true, rfl⟩
  | dateTime => exact ⟨.string "2020-01-01T00:00:00", rfl⟩
  | date => exact ⟨.string "2020-01-01", rfl⟩
  | time => exact ⟨.string "00:00:00", rfl⟩
  | enum name =>
    cases hvalues : registry.enumValues? name with
    | none =>
      refine ⟨.string "", ?_⟩
      change checkEnum registry name (.string "") = .ok ()
      rw [checkEnum, hvalues]
    | some values =>
      obtain ⟨text, rest, rfl⟩ := List.exists_cons_of_ne_nil (enumValues?_ne_nil hvalues)
      refine ⟨.string text, ?_⟩
      change checkEnum registry name (.string text) = .ok ()
      rw [checkEnum, hvalues]
      simp

/-- A box, a circle and a point to be near, all in one. -/
def somewhere : Json :=
  .object
    [("lat", .int 1), ("lon", .int 1), ("pivot", .string "1km"), ("distance", .string "1km"),
     ("top_left", .object [("lat", .int 1), ("lon", .int 1)]),
     ("bottom_right", .object [("lat", .int 1), ("lon", .int 1)])]

/-- **Every operator takes some operand on every field**, also where it is not legal. -/
theorem exists_check (registry : Registry) (limits : Limits) (field : Field) (op : Operator) :
    ∃ value, check registry limits field op value = .ok () := by
  cases hshape : op.shape field.kind with
  | flag => exact ⟨.bool true, (check_flag hshape).2 ⟨true, rfl⟩⟩
  | scalar =>
    cases htext : takesText op with
    | true => exact ⟨.string "", (check_text hshape htext).2 ⟨"", rfl⟩⟩
    | false =>
      obtain ⟨value, hvalue⟩ := exists_checkValue registry field.kind
      exact ⟨value, (check_scalar hshape htext).2 hvalue⟩
  | list =>
    -- the empty list is never too long
    refine ⟨.array [], (check_list hshape).2 ⟨[], rfl, Nat.zero_le _, ?_⟩⟩
    simp
  | range =>
    obtain ⟨value, hvalue⟩ := exists_checkValue registry field.kind
    exact ⟨.array [value, value], (check_range hshape).2 ⟨value, value, rfl, hvalue, hvalue⟩⟩
  | structured =>
    refine ⟨somewhere, ?_⟩
    unfold check
    rw [hshape]
    cases op <;> rfl

end Criteria.Operand
