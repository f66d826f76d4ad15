import Criteria.Filter.Basic
import Criteria.Filter.Operand
import Criteria.Json.Reader
import Criteria.Scope

/-!
# Reading filter documents

A client writes a filter as a JSON document. An object is the conjunction of its members; the keys
`_and`, `_or` and `_not` combine further objects, and every other key is a field with an object of
operators:

    {"_or": [{"status": {"_eq": "active"}}, {"age": {"_gte": 18}}], "name": {"_neq": "Ada"}}

`Filter.read` checks such a document against a scope and builds the tree, following the order in
which the client wrote. Conjunctions drop the parts that constrain nothing; a disjunction with such
a part constrains nothing itself, and neither does an empty one; a combinator of a single part is
that part. What is dropped has been checked all the same.

Operators are counted over the whole document. The first fault met on the way is the error.
-/

namespace Criteria.Filter

/-- The conjunction of parts, a single one standing for itself. -/
def allOf : List Filter → Filter
  | [] => identity
  | [part] => part
  | parts => .all parts

/-- The parts that a combinator adds: none if it is empty, a single part itself. -/
def collapse (combine : List Filter → Filter) : List Filter → List Filter
  | [] => []
  | [part] => [part]
  | parts => [combine parts]

/-- What `_and` adds: its parts without those that constrain nothing. -/
def collapseAll (parts : List Filter) : List Filter :=
  collapse .all (parts.filter fun part => !part.isIdentity)

/-- What `_or` adds: nothing if some part constrains nothing. -/
def collapseAny (parts : List Filter) : List Filter :=
  if parts.any isIdentity then [] else collapse .any parts

/-! ### Leaves -/

/-- Reads one operator of a field. A custom filter goes before a built-in operator of its key. -/
def readLeaf (scope : Scope) (name : String) (declared : Option Field) (key : String)
    (operand : Json) : Except RequestError Filter :=
  if scope.hasCustom name key then .ok (.custom name (CustomFilters.canonicalKey key) operand)
  else
    match declared with
    | none => .error (.unsupportedOperator name key none scope.adapter)
    | some declared =>
      if !declared.filterable then .error (.notFilterable scope.entity name)
      else
        match (Operator.ofKey? key).filter (scope.registry.isLegal declared.kind scope.adapter) with
        | none => .error (.unsupportedOperator name key (some declared.kind) scope.adapter)
        | some op =>
          match Operand.check scope.registry scope.limits declared op operand with
          | .error fault => .error (.invalidOperand declared.name op.key fault)
          | .ok () => .ok (.field name op operand)

/-- Reads the operators of a field in turn; `used` counts those read before. -/
def readOperators (scope : Scope) (name : String) (declared : Option Field) (used : Nat) :
    List (String × Json) → Except RequestError (List Filter × Nat)
  | [] => .ok ([], used)
  | (key, operand) :: rest =>
    if scope.limits.maxPredicates < used + 1 then
      .error (.tooManyPredicates scope.limits.maxPredicates)
    else do
      let leaf ← readLeaf scope name declared key operand
      let (leaves, used) ← readOperators scope name declared (used + 1) rest
      return (leaf :: leaves, used)

/-- Reads a field with its object of operators. -/
def readField (scope : Scope) (path : Path) (used : Nat) (name : String) (value : Json) :
    Except RequestError (List Filter × Nat) :=
  let declared := scope.field? name
  if declared.isNone && !scope.hasCustomField name then
    .error (.unknownField scope.entity name)
  else
    match value with
    | .object [] => .error (.invalidOperand name "" .noOperator)
    | .object operators => readOperators scope name declared used operators
    | _ => .error (.malformed path .notOperators)

/-! ### Combinators -/

mutual

/-- Reads an object at a depth of nesting. -/
def readObject (scope : Scope) (depth : Nat) (path : Path) (used : Nat) :
    Json → Except RequestError (Filter × Nat)
  | .object members =>
    if scope.limits.maxDepth < depth then .error (.tooDeep scope.limits.maxDepth)
    else do
      let (parts, used) ← readMembers scope depth path used members
      return (allOf parts, used)
  | _ =>
    if scope.limits.maxDepth < depth then .error (.tooDeep scope.limits.maxDepth)
    else .error (.malformed path .notObject)

/-- Reads the members of an object in turn. -/
def readMembers (scope : Scope) (depth : Nat) (path : Path) (used : Nat) :
    List (String × Json) → Except RequestError (List Filter × Nat)
  | [] => .ok ([], used)
  | (key, value) :: rest => do
    let here := path ++ [.key key]
    let (parts, used) ←
      if key = "_and" then
        match value with
        | .array items => do
          let (parts, used) ← readItems scope (depth + 1) here 0 used items
          pure (collapseAll parts, used)
        | _ => .error (.malformed here .notObjectList)
      else if key = "_or" then
        match value with
        | .array items => do
          let (parts, used) ← readItems scope (depth + 1) here 0 used items
          pure (collapseAny parts, used)
        | _ => .error (.malformed here .notObjectList)
      else if key = "_not" then do
        let (part, used) ← readObject scope (depth + 1) here used value
        pure ([.not part], used)
      else readField scope here used key value
    let (others, used) ← readMembers scope depth path used rest
    return (parts ++ others, used)

/-- Reads the items of a combinator in turn, the first of them at `index`. -/
def readItems (scope : Scope) (depth : Nat) (path : Path) (index used : Nat) :
    List Json → Except RequestError (List Filter × Nat)
  | [] => .ok ([], used)
  | item :: items => do
    let (part, used) ← readObject scope depth (path ++ [.index index]) used item
    let (parts, used) ← readItems scope depth path (index + 1) used items
    return (part :: parts, used)

end

/-! ### Documents -/

/-- Reads a filter document. `null` constrains nothing. -/
def read (scope : Scope) : Json → Except RequestError Filter
  | .null => .ok identity
  | document => (readObject scope 0 [] 0 document).map Prod.fst

/-- Reads a filter from JSON text, whose size is checked first. -/
def readText (scope : Scope) (text : String) : Except RequestError Filter :=
  if scope.limits.maxInputBytes < text.utf8ByteSize then
    .error (.inputTooLarge text.utf8ByteSize scope.limits.maxInputBytes)
  else
    match Json.ofText? text with
    | none => .error .invalidJson
    | some document => read scope document

end Criteria.Filter
