import Criteria.Proofs.Filter.Operand
import Criteria.Registry
import Criteria.Sql.Leaf

/-!
# What a dialect supports

The base sets of the registry and the leaves of the SQL dialects are two tables over the same
operators, written apart from each other. `supports` is what the second one has a condition for.
They agree: no base set of a dialect lists an operator that the dialect does not support.

* `supports_of_mem_baseOperators` — a base set lists supported operators only;
* `exists_leaf` — a supported operator has a condition for every checked operand.
-/

namespace Criteria.Sql

variable {dialect : Dialect} {kind : Kind} {op : Operator}

/-- Whether a dialect has an operator on fields of a kind. -/
def supports (dialect : Dialect) (kind : Kind) : Operator → Bool
  | .fullText | .phrase | .near | .withinDistance | .withinBounds => false
  | .contains => kind ≠ .array || dialect = .postgres
  | .overlaps => dialect = .postgres
  | _ => true

/-! ### The base sets -/

/-- The words and points of the search index are in no set of a dialect. -/
theorem supports_of_mem_baseOperators (h : op ∈ Registry.baseOperators kind (.sql dialect)) :
    supports dialect kind op = true := by
  cases op with
  | fullText | phrase | near | withinDistance | withinBounds =>
    cases kind with
    | string => cases dialect <;> simp [Registry.baseOperators, Registry.stringOperators] at h
    | array => cases dialect <;> simp [Registry.baseOperators, Registry.arrayOperators] at h
    | _ => simp [Registry.baseOperators, Registry.enumOperators, Registry.geoOperators] at h
  | contains =>
    -- substrings are for every dialect, elements of an array for the one that has arrays
    cases kind with
    | array =>
      cases dialect with
      | postgres => rfl
      | _ => simp [Registry.baseOperators, Registry.arrayOperators] at h
    | _ => rfl
  | overlaps =>
    cases kind with
    | string => cases dialect <;> simp [Registry.baseOperators, Registry.stringOperators] at h
    | array =>
      cases dialect with
      | postgres => rfl
      | _ => simp [Registry.baseOperators, Registry.arrayOperators] at h
    | _ => simp [Registry.baseOperators, Registry.enumOperators, Registry.geoOperators] at h
  | _ => rfl

/-- The generic set is supported on fields of every kind. -/
theorem supports_of_mem_generic (h : op ∈ Registry.baseOperators .generic (.sql dialect)) :
    supports dialect kind op = true := by
  simp only [Registry.baseOperators, List.mem_cons, List.not_mem_nil, or_false] at h
  rcases h with rfl | rfl | rfl <;> rfl

/-! ### Checked operands -/

variable {registry : Registry} {limits : Limits} {field : Field} {operand : Json}

/-- **A supported operator has a condition for every checked operand.** -/
theorem exists_leaf (hsupports : supports dialect field.kind op = true)
    (hcheck : Operand.check registry limits field op operand = .ok ()) (bound : Nat) :
    ∃ condition values, leaf dialect bound field op operand = .ok (condition, values) := by
  cases op with
  | eq | neq | gt | gte | lt | lte | like | ilike => exact ⟨_, _, rfl⟩
  | isIn | notIn =>
    obtain ⟨items, rfl, -⟩ := (Operand.check_list rfl).1 hcheck
    cases items <;> exact ⟨_, _, rfl⟩
  | startsWith | endsWith =>
    obtain ⟨text, rfl⟩ := (Operand.check_text rfl rfl).1 hcheck
    exact ⟨_, _, rfl⟩
  | contains =>
    unfold leaf
    by_cases harray : field.kind = .array
    · have hdialect : dialect = .postgres := by simpa [supports, harray] using hsupports
      exact ⟨_, _, (if_pos harray).trans (if_pos hdialect)⟩
    · obtain ⟨text, rfl⟩ := (Operand.check_text (by simp [Operator.shape, harray]) rfl).1 hcheck
      exact ⟨_, _, if_neg harray⟩
  | between =>
    obtain ⟨low, high, rfl, -⟩ := (Operand.check_range rfl).1 hcheck
    exact ⟨_, _, rfl⟩
  | isNull =>
    obtain ⟨positive, rfl⟩ := (Operand.check_flag rfl).1 hcheck
    exact ⟨_, _, rfl⟩
  | overlaps =>
    have hdialect : dialect = .postgres := by simpa [supports] using hsupports
    exact ⟨_, _, if_pos hdialect⟩
  | fullText | phrase | near | withinDistance | withinBounds => cases hsupports

end Criteria.Sql
