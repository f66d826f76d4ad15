import Criteria.Proofs.Filter.Failure

/-!
# No clause is hidden

Where one part of a filter already decides the whole, the other parts could be skipped, and with
them what is wrong with them. The compiler skips nothing: a filter compiles exactly if each of its
leaves does, and otherwise fails as its leftmost leaf that fails.

A filter of built-in leaves never fails for a fragment in another language, either. A leaf on a
field fails for its operand or for its operator (`LeafFailure`), and combining what leaves were
compiled to does not fail.

* `failsWith_leaf` — why a leaf on a field fails;
* `compile_by_leaves` — what compiles, and what the failure is of what does not.
-/

namespace Criteria

/-! ### Why leaves fail -/

/-- Why a leaf on a field fails: for its operand, or for an operator that the adapter lacks. The
failure names the field and the operator. -/
inductive LeafFailure (adapter : Adapter) (field : Field) (op : Operator) : CompileError → Prop
  | operand (fault : LeafFault) :
    LeafFailure adapter field op (.invalidOperand field.name op.key fault)
  | operator : LeafFailure adapter field op
      (.unsupportedOperator field.name op.key field.kind adapter)

variable {field : Field} {op : Operator} {operand : Json}

theorem failsWith_invalidLeaf {α : Type} {adapter : Adapter} (fault : LeafFault) :
    FailsWith (LeafFailure adapter field op)
      (.error (invalidLeaf field op fault) : Except CompileError α) :=
  failsWith_error.2 (.operand fault)

namespace Sql

variable {dialect : Dialect} {bound : Nat}

theorem failsWith_unsupportedLeaf {α : Type} :
    FailsWith (LeafFailure (.sql dialect) field op)
      (.error (unsupportedLeaf dialect field op) : Except CompileError α) :=
  failsWith_error.2 .operator

theorem failsWith_membership {positive : Bool} :
    FailsWith (LeafFailure (.sql dialect) field op)
      (membership bound field op positive operand) := by
  unfold membership
  split
  · exact failsWith_ok _
  · exact failsWith_ok _
  · exact failsWith_invalidLeaf .notList

theorem failsWith_literalMatch {placement : Placement} :
    FailsWith (LeafFailure (.sql dialect) field op)
      (literalMatch dialect bound field op placement operand) := by
  unfold literalMatch
  split
  · exact failsWith_ok _
  · exact failsWith_invalidLeaf .notText

theorem failsWith_arrayTest {test : Nat → Test} :
    FailsWith (LeafFailure (.sql dialect) field op)
      (arrayTest dialect bound field op operand test) := by
  unfold arrayTest
  split
  · exact failsWith_ok _
  · exact failsWith_unsupportedLeaf

theorem failsWith_leaf :
    FailsWith (LeafFailure (.sql dialect) field op) (leaf dialect bound field op operand) := by
  -- one case for each form of a test, with the operators that have it
  cases op with
  | isIn | notIn => exact failsWith_membership
  | startsWith | endsWith => exact failsWith_literalMatch
  | overlaps => exact failsWith_arrayTest
  | contains =>
    -- on arrays a test of elements, on other kinds a pattern
    rw [leaf]
    split
    · exact failsWith_arrayTest
    · exact failsWith_literalMatch
  | between =>
    simp only [leaf]
    split
    · exact failsWith_ok _
    · exact failsWith_invalidLeaf .notRange
    · exact failsWith_invalidLeaf .notList
  | isNull =>
    simp only [leaf]
    split
    · exact failsWith_ok _
    · exact failsWith_invalidLeaf .notBoolean
  | fullText | phrase | near | withinDistance | withinBounds => exact failsWith_unsupportedLeaf
  | eq | neq | gt | gte | lt | lte | like | ilike => exact failsWith_ok _

end Sql

namespace Search

theorem failsWith_expectText :
    FailsWith (LeafFailure .search field op) (expectText field op operand) := by
  unfold expectText
  split
  · exact failsWith_ok _
  · exact failsWith_invalidLeaf .notText

theorem failsWith_expectList :
    FailsWith (LeafFailure .search field op) (expectList field op operand) := by
  unfold expectList
  split
  · exact failsWith_ok _
  · exact failsWith_invalidLeaf .notList

theorem failsWith_expectPoint {value : Option Json} :
    FailsWith (LeafFailure .search field op) (expectPoint field op value) := by
  unfold expectPoint
  split
  · exact failsWith_ok _
  · exact failsWith_invalidLeaf .noCoordinates

theorem failsWith_expectDistance {key : String} :
    FailsWith (LeafFailure .search field op) (expectDistance field op operand key) := by
  unfold expectDistance
  split
  · exact failsWith_ok _
  · exact failsWith_invalidLeaf (.noDistance key)

theorem failsWith_leaf : FailsWith (LeafFailure .search field op) (leaf field op operand) := by
  cases op with
  | isIn | notIn | overlaps => exact failsWith_expectList.bind fun _ => failsWith_pure _
  | like | ilike | startsWith | endsWith =>
    exact failsWith_expectText.bind fun _ => failsWith_pure _
  | contains =>
    simp only [leaf]
    split
    · exact failsWith_expectList.bind fun _ => failsWith_pure _
    · exact failsWith_expectText.bind fun _ => failsWith_pure _
  | between =>
    refine failsWith_expectList.bind fun items => ?_
    split
    · exact failsWith_ok _
    · exact failsWith_invalidLeaf .notRange
  | isNull =>
    simp only [leaf]
    split
    · exact failsWith_ok _
    · exact failsWith_ok _
    · exact failsWith_invalidLeaf .notBoolean
  | near | withinDistance =>
    refine failsWith_expectPoint.bind fun _ => ?_
    exact failsWith_expectDistance.bind fun _ => failsWith_pure _
  | withinBounds =>
    exact failsWith_expectPoint.bind fun _ => failsWith_expectPoint.bind fun _ => failsWith_pure _
  | eq | neq | gt | gte | lt | lte | fullText | phrase => exact failsWith_ok _

end Search

/-- **A leaf on a field fails for its operand or for its operator.** -/
theorem Fragment.failsWith_leaf {adapter : Adapter} {bound : Nat} :
    FailsWith (LeafFailure adapter field op) (leaf adapter bound field op operand) := by
  cases adapter with
  | sql dialect => exact Sql.failsWith_leaf.bind fun _ => failsWith_pure _
  | search => exact Search.failsWith_leaf.bind fun _ => failsWith_pure _

/-- Whether a failure is a mismatch: a filter that was read for another adapter, or a fragment in
another language than the adapter's. -/
def CompileError.isMismatch : CompileError → Bool
  | .otherAdapter .. | .wrongFragment .. => true
  | _ => false

namespace Filter

variable {scope : Scope}

/-- A leaf on a field is in the adapter's language. -/
theorem failsWith_compileField {bound : Nat} {name : String} :
    FailsWith (fun fault => fault.isMismatch = false)
      (compileField scope bound name op operand) := by
  unfold compileField
  split
  · exact failsWith_error.2 rfl
  · -- an operator that is not legal is refused before the adapter sees it
    split
    · intro fault hfault
      cases Fragment.failsWith_leaf fault hfault <;> rfl
    · exact failsWith_error.2 rfl

mutual

/-- The leaves of a filter without custom leaves are operators on fields. -/
theorem exists_field_of_mem_leaves (filter : Filter) (h : filter.isBuiltin = true) :
    ∀ leaf ∈ filter.leaves, ∃ name op operand, leaf = .field name op operand := by
  match filter with
  | .all parts | .any parts =>
    rw [isBuiltin] at h
    simpa using exists_field_of_mem_flatMap_leaves parts h
  | .not part =>
    rw [isBuiltin] at h
    simpa using exists_field_of_mem_leaves part h
  | .field name op operand => simp
  | .custom .. => cases h
termination_by sizeOf filter

theorem exists_field_of_mem_flatMap_leaves (parts : List Filter) (h : areBuiltin parts = true) :
    ∀ leaf ∈ parts.flatMap leaves, ∃ name op operand, leaf = .field name op operand := by
  match parts with
  | [] => simp
  | part :: rest =>
    rw [areBuiltin, Bool.and_eq_true] at h
    rw [List.flatMap_cons]
    exact List.forall_mem_append.2
      ⟨exists_field_of_mem_leaves part h.1, exists_field_of_mem_flatMap_leaves rest h.2⟩
termination_by sizeOf parts

end

/-! ### The law -/

/-- A filter compiles if each leaf does. -/
theorem compile_eq_ok_iff {filter : Filter} :
    (∃ predicate, filter.compile scope = .ok predicate) ↔
      ∀ leaf ∈ filter.leaves, ∃ predicate, leaf.compile scope = .ok predicate := by
  -- the failure of a filter is the first among its leaves
  simp only [← failure?_eq_none, failure?_compile filter, List.findSome?_eq_none_iff]

/-- A filter fails as the first of its leaves that fails. -/
theorem compile_eq_error_iff {filter : Filter} {fault : CompileError} :
    filter.compile scope = .error fault ↔
      ∃ before leaf after, filter.leaves = before ++ leaf :: after ∧
        (∀ earlier ∈ before, ∃ predicate, earlier.compile scope = .ok predicate) ∧
        leaf.compile scope = .error fault := by
  rw [← failure?_eq_some, failure?_compile, List.findSome?_eq_some_iff]
  simp only [failure?_eq_some, failure?_eq_none]
  constructor
  · rintro ⟨before, leaf, after, hleaves, hleaf, hbefore⟩
    exact ⟨before, leaf, after, hleaves, hbefore, hleaf⟩
  · rintro ⟨before, leaf, after, hleaves, hbefore, hleaf⟩
    exact ⟨before, leaf, after, hleaves, hleaf, hbefore⟩

/-- A filter without custom leaves never fails for a fragment in another language. -/
theorem isMismatch_of_compile {filter : Filter} {fault : CompileError}
    (hbuiltin : filter.isBuiltin = true) (h : filter.compile scope = .error fault) :
    fault.isMismatch = false := by
  obtain ⟨before, leaf, after, hleaves, -, hfault⟩ := compile_eq_error_iff.1 h
  have hmem : leaf ∈ filter.leaves := by simp [hleaves]
  obtain ⟨name, op, operand, rfl⟩ := exists_field_of_mem_leaves filter hbuiltin leaf hmem
  -- the leaf fails alone as the whole does, so what leaves can fail with settles it
  have hcompile : FailsWith (fun fault => fault.isMismatch = false)
      ((Filter.field name op operand).compile scope) := by
    refine FailsWith.bind ?_ fun _ => failsWith_pure _
    rw [lower]
    exact failsWith_compileField
  exact hcompile fault hfault

/-- **No clause is dropped and no failure hidden.** A filter of any nesting compiles exactly if each
of its leaves compiles alone, and fails exactly as the leftmost leaf that does not. The combinators
never refuse what the parts below them were compiled to, and the failure of a filter of built-in
leaves is never a mismatch. -/
theorem compile_by_leaves (scope : Scope) (filter : Filter) :
    ((∃ predicate, filter.compile scope = .ok predicate) ↔
      ∀ leaf ∈ filter.leaves, ∃ predicate, leaf.compile scope = .ok predicate) ∧
    (∀ fault, filter.compile scope = .error fault ↔
      ∃ before leaf after, filter.leaves = before ++ leaf :: after ∧
        (∀ earlier ∈ before, ∃ predicate, earlier.compile scope = .ok predicate) ∧
        leaf.compile scope = .error fault) ∧
    (∀ bound parts fragments values, lowerAll scope bound parts = .ok (fragments, values) →
      (∃ whole, Fragment.all scope.adapter fragments = .ok whole) ∧
        ∃ whole, Fragment.any scope.adapter fragments = .ok whole) ∧
    (∀ bound part fragment values, lower scope bound part = .ok (fragment, values) →
      ∃ whole, Fragment.negate scope.adapter fragment = .ok whole) ∧
    (filter.isBuiltin = true →
      ∀ fault, filter.compile scope = .error fault → fault.isMismatch = false) := by
  refine ⟨compile_eq_ok_iff, fun _ => compile_eq_error_iff, ?_, ?_, ?_⟩
  · intro bound parts fragments values h
    have haccepts := accepts_of_lowerAll h
    exact ⟨failure?_eq_none.1 (Fragment.failure?_all haccepts),
      failure?_eq_none.1 (Fragment.failure?_any haccepts)⟩
  · intro bound part fragment values h
    exact failure?_eq_none.1 (Fragment.failure?_negate (accepts_of_lower h))
  · intro hbuiltin fault h
    exact isMismatch_of_compile hbuiltin h

/-- Nothing can match the conjunction below the negation, and the empty conjunction beside it always
matches. What is wrong with a leaf in there is reported all the same, before what is wrong with the
leaf behind it. -/
theorem compile_by_leaves_masked :
    let scope : Scope :=
      ⟨"Post", ⟨.ofList [("Post", ⟨"Post", [.declare "title" .string]⟩)]⟩, .empty, .sql .sqlite,
        .empty, {}⟩
    let titled : Filter := .field "title" .eq (.string "x")
    let undeclared : Filter := .field "ghost" .eq (.string "y")
    let illegal : Filter := .field "title" .ilike (.string "z")
    let filter : Filter := .any [.all [], .not (.all [.any [], titled, undeclared]), illegal]
    filter.isBuiltin = true ∧
      filter.compile scope = .error (.unknownField "Post" "ghost") ∧
      (CompileError.unknownField "Post" "ghost").isMismatch = false ∧
      illegal.compile scope =
        .error (.unsupportedOperator "title" "_ilike" .string (.sql .sqlite)) := by
  intro scope titled undeclared illegal filter
  obtain ⟨-, hfails, -, -, hmismatch⟩ := compile_by_leaves scope filter
  have htitled : ∃ predicate, titled.compile scope = .ok predicate := ⟨_, rfl⟩
  have hfilter : filter.compile scope = .error (.unknownField "Post" "ghost") :=
    (hfails _).2 ⟨[titled], undeclared, [illegal], rfl, List.forall_mem_singleton.2 htitled, rfl⟩
  exact ⟨rfl, hfilter, hmismatch rfl _ hfilter, rfl⟩

end Filter

end Criteria
