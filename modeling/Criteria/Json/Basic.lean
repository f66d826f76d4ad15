import Criteria.Numeric.Binary64

/-!
# JSON values

`Json` is the value model of filter documents, operands, bound parameters and query documents.
Members of an object keep the order they were written in, because everything compiled from a
document follows that order.

Numbers come in two sorts that never mix: an integer written without fraction or exponent stays an
integer, every other number is a double.

## Main definitions

* `Json.get?` looks a member up by key;
* `Json.Members.insert` adds a member, where a repeated key keeps its first position and takes the
  last value;
* `Json.asString?`, `Json.asBool?`, `Json.asArray?`, `Json.asDouble?` read a value as one sort.
-/

namespace Criteria

/-- A JSON number. -/
inductive Number where
  /-- A number written without fraction and exponent. -/
  | int (value : Int)
  /-- Any other number. -/
  | double (value : Binary64)
deriving DecidableEq, Repr, Inhabited

/-- A JSON value; objects keep the order of their members. -/
inductive Json where
  | null
  | bool (value : Bool)
  | number (value : Number)
  | string (value : String)
  | array (items : List Json)
  | object (members : List (String × Json))
deriving Repr, Inhabited

namespace Json

/-- The members of an object, in written order. -/
abbrev Members := List (String × Json)

/-! ### Equality -/

mutual

/-- Decides whether two values are equal, member order included. -/
def decEq : (a b : Json) → Decidable (a = b)
  | .null, .null => isTrue rfl
  | .bool a, .bool b =>
    if h : a = b then isTrue (h ▸ rfl) else isFalse fun e => h (Json.bool.inj e)
  | .number a, .number b =>
    if h : a = b then isTrue (h ▸ rfl) else isFalse fun e => h (Json.number.inj e)
  | .string a, .string b =>
    if h : a = b then isTrue (h ▸ rfl) else isFalse fun e => h (Json.string.inj e)
  | .array a, .array b =>
    match decEqItems a b with
    | isTrue h => isTrue (h ▸ rfl)
    | isFalse h => isFalse fun e => h (Json.array.inj e)
  | .object a, .object b =>
    match decEqMembers a b with
    | isTrue h => isTrue (h ▸ rfl)
    | isFalse h => isFalse fun e => h (Json.object.inj e)
  | .null, .bool _ | .null, .number _ | .null, .string _ | .null, .array _ | .null, .object _
  | .bool _, .null | .bool _, .number _ | .bool _, .string _ | .bool _, .array _
  | .bool _, .object _ | .number _, .null | .number _, .bool _ | .number _, .string _
  | .number _, .array _ | .number _, .object _ | .string _, .null | .string _, .bool _
  | .string _, .number _ | .string _, .array _ | .string _, .object _ | .array _, .null
  | .array _, .bool _ | .array _, .number _ | .array _, .string _ | .array _, .object _
  | .object _, .null | .object _, .bool _ | .object _, .number _ | .object _, .string _
  | .object _, .array _ => isFalse (by simp)

/-- Decides whether two lists of values are equal. -/
def decEqItems : (a b : List Json) → Decidable (a = b)
  | [], [] => isTrue rfl
  | [], _ :: _ | _ :: _, [] => isFalse (by simp)
  | a :: as, b :: bs =>
    match decEq a b, decEqItems as bs with
    | isTrue h, isTrue t => isTrue (h ▸ t ▸ rfl)
    | isFalse h, _ => isFalse fun e => h (List.cons.inj e).1
    | _, isFalse t => isFalse fun e => t (List.cons.inj e).2

/-- Decides whether two lists of members are equal. -/
def decEqMembers : (a b : List (String × Json)) → Decidable (a = b)
  | [], [] => isTrue rfl
  | [], _ :: _ | _ :: _, [] => isFalse (by simp)
  | (k, a) :: as, (l, b) :: bs =>
    if hk : k = l then
      match decEq a b, decEqMembers as bs with
      | isTrue h, isTrue t => isTrue (hk ▸ h ▸ t ▸ rfl)
      | isFalse h, _ => isFalse fun e => h (Prod.mk.inj (List.cons.inj e).1).2
      | _, isFalse t => isFalse fun e => t (List.cons.inj e).2
    else isFalse fun e => hk (Prod.mk.inj (List.cons.inj e).1).1

end

instance : DecidableEq Json := decEq

/-! ### Building -/

/-- An integer value. -/
def int (i : Int) : Json := .number (.int i)

/-- A natural number as a value. -/
def nat (n : Nat) : Json := .number (.int n)

/-- The object with a single member. -/
def single (key : String) (value : Json) : Json := .object [(key, value)]

/-- A list of strings as a value. -/
def strings (items : List String) : Json := .array (items.map .string)

/-- The value, or `null` where there is none. -/
def ofOption (value : Option Json) : Json := value.getD .null

namespace Members

/-- Adds a member. A key that is present keeps its position and takes the new value. -/
def insert (key : String) (value : Json) : Members → Members
  | [] => [(key, value)]
  | (k, v) :: rest => if k = key then (k, value) :: rest else (k, v) :: insert key value rest

/-- The members in order of their first mention, each with its last value. -/
def merge (members : Members) : Members :=
  members.foldl (fun acc m => insert m.1 m.2 acc) []

@[simp] theorem insert_nil (key : String) (value : Json) :
    insert key value [] = [(key, value)] := rfl

end Members

/-! ### Reading -/

/-- The value of a member, `none` for a missing key and for anything but an object. -/
def get? (key : String) : Json → Option Json
  | .object members => members.lookup key
  | _ => none

/-- Whether the value is `null`. -/
def isNull : Json → Bool
  | .null => true
  | _ => false

/-- The text of a string. -/
def asString? : Json → Option String
  | .string s => some s
  | _ => none

/-- The value of a boolean. -/
def asBool? : Json → Option Bool
  | .bool b => some b
  | _ => none

/-- The items of an array. -/
def asArray? : Json → Option (List Json)
  | .array items => some items
  | _ => none

/-- The members of an object. -/
def asObject? : Json → Option Members
  | .object members => some members
  | _ => none

/-- The value of an integer. -/
def asInt? : Json → Option Int
  | .number (.int i) => some i
  | _ => none

/-- The value of a number as a double; an integer is rounded to the nearest one. -/
def asDouble? : Json → Option Binary64
  | .number (.int i) => some (Binary64.ofInt i)
  | .number (.double x) => some x
  | _ => none

end Json

end Criteria
