import Criteria.Adapter
import Criteria.Catalog
import Criteria.Operator

/-!
# The operator registry

The registry says which operators are legal on a field of a kind under an adapter. Three layers
decide, the first that applies wins:

1. an override of exactly this adapter and kind;
2. for an enum, the restriction it was declared with;
3. the base set of the kind under the adapter.

A kind whose set is empty under an adapter is treated as `generic` there: its *effective kind*.
All sets are in canonical order.

## Main definitions

* `Registry.registerEnum`, `Registry.overrideKind` assemble a registry;
* `Registry.operatorsFor`, `Registry.effectiveKind`, `Registry.isLegal` are its look-ups;
* `Registry.enumValues?` are the values an operand of an enum may take.
-/

namespace Criteria

/-- An enum as it is declared. -/
structure EnumDeclaration where
  /-- The name of the enum. -/
  name : String
  /-- Its values; without any, every text is a value. -/
  values : List String := []
  /-- The operators it is restricted to, `none` for all that enums have. -/
  operators : Option (List Operator) := none
deriving Repr

/-- What the registry keeps of an enum. -/
structure EnumEntry where
  /-- The values of the enum. -/
  values : List String
  /-- The operators it is restricted to. -/
  operators : Option (List Operator)
deriving Repr

/-- Which operators are legal on which kinds. -/
structure Registry where
  /-- The declared enums. -/
  enums : Catalog EnumEntry
  /-- The overridden sets, the latest first. -/
  overrides : List ((Adapter × Kind) × List Operator)

namespace Registry

/-- The registry of the base sets alone. -/
def empty : Registry := ⟨.empty, []⟩

instance : Inhabited Registry := ⟨empty⟩

/-! ### Base sets -/

/-- The operators of every enum. -/
def enumOperators : List Operator := [.eq, .neq, .isIn, .notIn, .isNull]

/-- The operators of text. Matching without regard to case is for adapters that have it natively,
matching of words and phrases is for the search index. -/
def stringOperators : Adapter → List Operator
  | .sql .postgres =>
    [.eq, .neq, .gt, .gte, .lt, .lte, .isIn, .notIn, .like, .ilike, .contains, .startsWith,
      .endsWith, .isNull]
  | .search =>
    [.eq, .neq, .gt, .gte, .lt, .lte, .isIn, .notIn, .like, .ilike, .contains, .startsWith,
      .endsWith, .isNull, .fullText, .phrase]
  | _ =>
    [.eq, .neq, .gt, .gte, .lt, .lte, .isIn, .notIn, .like, .contains, .startsWith, .endsWith,
      .isNull]

/-- The operators of arrays, none where the adapter has no arrays. -/
def arrayOperators : Adapter → List Operator
  | .sql .postgres | .search => [.contains, .isNull, .overlaps]
  | _ => []

/-- The operators of points, none but on the search index. -/
def geoOperators : Adapter → List Operator
  | .search => [.isNull, .near, .withinDistance, .withinBounds]
  | _ => []

/-- The base set of a kind under an adapter. -/
def baseOperators (kind : Kind) (adapter : Adapter) : List Operator :=
  match kind with
  | .id => [.eq, .neq, .isIn, .notIn, .isNull]
  | .string => stringOperators adapter
  | .integer | .float => [.eq, .neq, .gt, .gte, .lt, .lte, .isIn, .notIn, .between, .isNull]
  | .boolean => [.eq, .neq, .isNull]
  | .dateTime | .date | .time => [.eq, .neq, .gt, .gte, .lt, .lte, .between, .isNull]
  | .enum _ => enumOperators
  | .array => arrayOperators adapter
  | .geoPoint => geoOperators adapter
  | .generic => [.eq, .neq, .isNull]

/-! ### Assembly -/

/-- Declares an enum, replacing an earlier declaration of the name. The name must not be reserved,
and a restriction may only list operators that enums have. -/
def registerEnum (registry : Registry) (declared : EnumDeclaration) :
    Except DeclarationError Registry :=
  if Kind.isReserved declared.name then .error (.reservedEnumName declared.name)
  else
    match (declared.operators.getD []).find? fun op => !enumOperators.contains op with
    | some op => .error (.enumOperatorNotAllowed declared.name op.key)
    | none =>
      let entry : EnumEntry := ⟨declared.values, declared.operators.map Operator.canonical⟩
      .ok { registry with enums := registry.enums.insert declared.name entry }

/-- Replaces the set of one kind under one adapter. -/
def overrideKind (registry : Registry) (adapter : Adapter) (kind : Kind)
    (operators : List Operator) : Registry :=
  { registry with
    overrides := ((adapter, kind), Operator.canonical operators) :: registry.overrides }

/-- Declares enums in turn, up to the first that is refused. -/
def registerEnums (registry : Registry) : List EnumDeclaration → Except DeclarationError Registry
  | [] => .ok registry
  | declared :: rest => do registerEnums (← registry.registerEnum declared) rest

/-! ### Look-up -/

/-- The restriction an enum was declared with. -/
def enumRestriction? (registry : Registry) : Kind → Option (List Operator)
  | .enum name => (registry.enums.get? name).bind EnumEntry.operators
  | _ => none

/-- The operators of exactly this kind under an adapter. An empty list means that the kind has no
set of its own there. -/
def operatorsFor (registry : Registry) (kind : Kind) (adapter : Adapter) : List Operator :=
  match registry.overrides.lookup (adapter, kind) with
  | some operators => operators
  | none => (registry.enumRestriction? kind).getD (baseOperators kind adapter)

/-- The kind whose set applies: the kind itself, or `generic` if its set is empty. -/
def effectiveKind (registry : Registry) (kind : Kind) (adapter : Adapter) : Kind :=
  if (registry.operatorsFor kind adapter).isEmpty then .generic else kind

/-- The operators that are legal on a kind under an adapter. -/
def legalOperators (registry : Registry) (kind : Kind) (adapter : Adapter) : List Operator :=
  registry.operatorsFor (registry.effectiveKind kind adapter) adapter

/-- Whether an operator is legal on a kind under an adapter. -/
def isLegal (registry : Registry) (kind : Kind) (adapter : Adapter) (op : Operator) : Bool :=
  (registry.legalOperators kind adapter).contains op

/-- The values of an enum, `none` if it is not declared or declared without values. -/
def enumValues? (registry : Registry) (name : String) : Option (List String) :=
  match registry.enums.get? name with
  | some entry => if entry.values.isEmpty then none else some entry.values
  | none => none

/-- The names of the declared enums, in order. -/
def enumNames (registry : Registry) : List String := registry.enums.names

/-- The built-in kinds and then the declared enums. -/
def kinds (registry : Registry) : List Kind := Kind.builtin ++ registry.enumNames.map .enum

theorem isLegal_iff {registry : Registry} {kind : Kind} {adapter : Adapter} {op : Operator} :
    registry.isLegal kind adapter op = true ↔ op ∈ registry.legalOperators kind adapter := by
  simp [isLegal]

end Registry

end Criteria
