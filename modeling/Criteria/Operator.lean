import Criteria.Kind

/-!
# Operators

The operators a client may apply to a field, in their canonical order. A client names an operator
by its key, `_eq`; the leading underscore may be left out.

An operator has a category and, for each kind of field, the shape its operand must have. Only
`contains` has a shape that depends on the kind: a substring on most kinds, and a list of required
elements on arrays.
-/

namespace Criteria

/-- An operator on a field. -/
inductive Operator where
  | eq
  | neq
  | gt
  | gte
  | lt
  | lte
  | isIn
  | notIn
  | like
  | ilike
  | contains
  | startsWith
  | endsWith
  | between
  | isNull
  | fullText
  | phrase
  | near
  | withinDistance
  | withinBounds
  | overlaps
deriving DecidableEq, Repr, Inhabited

/-- What an operator is about. -/
inductive OperatorCategory where
  | comparison
  | pattern
  | membership
  | nullCheck
  | fullText
  | geo
deriving DecidableEq, Repr

/-- The shape an operand must have. -/
inductive OperandShape where
  /-- One value of the field's kind. -/
  | scalar
  /-- A list of values of the field's kind. -/
  | list
  /-- A list of a lower and an upper bound. -/
  | range
  /-- A boolean. -/
  | flag
  /-- An object with members of its own. -/
  | structured
deriving DecidableEq, Repr

/-- The word for a category. -/
def OperatorCategory.word : OperatorCategory → String
  | comparison => "comparison"
  | pattern => "pattern"
  | membership => "membership"
  | nullCheck => "null_check"
  | fullText => "full_text"
  | geo => "geo"

/-- The word for a shape. -/
def OperandShape.word : OperandShape → String
  | scalar => "scalar"
  | list => "list"
  | range => "range"
  | flag => "flag"
  | structured => "structured"

namespace Operator

/-- All operators in canonical order. -/
def all : List Operator :=
  [eq, neq, gt, gte, lt, lte, isIn, notIn, like, ilike, contains, startsWith, endsWith, between,
    isNull, fullText, phrase, near, withinDistance, withinBounds, overlaps]

/-- The word for an operator. -/
def word : Operator → String
  | eq => "eq"
  | neq => "neq"
  | gt => "gt"
  | gte => "gte"
  | lt => "lt"
  | lte => "lte"
  | isIn => "in"
  | notIn => "not_in"
  | like => "like"
  | ilike => "ilike"
  | contains => "contains"
  | startsWith => "starts_with"
  | endsWith => "ends_with"
  | between => "between"
  | isNull => "is_null"
  | fullText => "match"
  | phrase => "match_phrase"
  | near => "near"
  | withinDistance => "within_distance"
  | withinBounds => "within_bounds"
  | overlaps => "overlaps"

/-- The key a client uses for an operator. -/
def key (op : Operator) : String := "_" ++ op.word

/-- The operator with a word. -/
def ofWord? (word : String) : Option Operator := all.find? fun op => op.word == word

/-- The operator with a key, whose leading underscore is optional. -/
def ofKey? (key : String) : Option Operator :=
  match key.toList with
  | '_' :: rest => ofWord? (String.ofList rest)
  | _ => ofWord? key

/-- Reads an operator in a declaration, with blanks around it dropped. -/
def read (text : String) : Except DeclarationError Operator :=
  match ofKey? (Text.trim text) with
  | some op => .ok op
  | none => .error (.unknownOperator text)

/-- What an operator is about. -/
def category : Operator → OperatorCategory
  | eq | neq | gt | gte | lt | lte | between => .comparison
  | like | ilike | contains | startsWith | endsWith => .pattern
  | isIn | notIn | overlaps => .membership
  | isNull => .nullCheck
  | fullText | phrase => .fullText
  | near | withinDistance | withinBounds => .geo

/-- The shape of the operand on a field of a kind. -/
def shape (op : Operator) (kind : Kind) : OperandShape :=
  match op with
  | isIn | notIn | overlaps => .list
  | contains => if kind = .array then .list else .scalar
  | between => .range
  | isNull => .flag
  | near | withinDistance | withinBounds => .structured
  | _ => .scalar

/-- The operators of a list in canonical order, each once. -/
def canonical (ops : List Operator) : List Operator := all.filter fun op => ops.contains op

/-- The list holds every operator. -/
theorem mem_all (op : Operator) : op ∈ all := by cases op <;> decide

/-- Ordering a list keeps its operators. -/
@[simp] theorem mem_canonical {op : Operator} {ops : List Operator} :
    op ∈ canonical ops ↔ op ∈ ops := by
  simp [canonical, mem_all]

/-- No two operators have the same word. -/
theorem ofWord?_word (op : Operator) : ofWord? op.word = some op := by cases op <;> decide

/-- The operator that a word names has this word. -/
theorem word_of_ofWord? {word : String} {op : Operator} (h : ofWord? word = some op) :
    op.word = word := by
  simpa using List.find?_some h

/-- Every operator is named by its key. -/
theorem ofKey?_key (op : Operator) : ofKey? op.key = some op := by
  have hkey : op.key.toList = '_' :: op.word.toList := by simp [key]
  rw [ofKey?, hkey]
  change ofWord? (String.ofList op.word.toList) = some op
  rw [String.ofList_toList, ofWord?_word]

end Operator

end Criteria
