import Criteria.Proofs.Filter.Leaves
import Criteria.Proofs.Filter.Lowering

/-!
# How compilation fails

The compiler fails for a leaf or not at all. Fragments of leaves are in the language of the adapter,
so combining them cannot fail, and how many values have been bound before a leaf decides about its
numbers but not about its success. So a filter fails exactly as its first leaf that fails alone.

* `failure?_lower` — this law, for every filter and any number of values bound before it;
* `failure?_compile` — the same for a whole filter.
-/

namespace Criteria

/-! ### Combining fragments -/

namespace Fragment

variable {adapter : Adapter} {parts : List Fragment} {part whole : Fragment}

/-- Fragments in the language of an adapter are conditions, or queries, one and all. -/
theorem mapM_of_accepts {α : Type} {expect : Fragment → Except CompileError α}
    (hexpect : ∀ part, accepts adapter part = true → ∃ inner, expect part = .ok inner)
    (haccepts : ∀ part ∈ parts, accepts adapter part = true) :
    ∃ inners, parts.mapM expect = .ok inners :=
  exists_mapM_iff.2 fun part hpart => hexpect part (haccepts part hpart)

theorem expectCondition_of_accepts {dialect : Dialect} (h : accepts (.sql dialect) part = true) :
    ∃ condition, expectCondition dialect part = .ok condition := by
  cases part with
  | sql condition => exact ⟨condition, rfl⟩
  | document query => cases h

theorem expectQuery_of_accepts (h : accepts .search part = true) :
    ∃ query, expectQuery part = .ok query := by
  cases part with
  | sql condition => cases h
  | document query => exact ⟨query, rfl⟩

/-- Conjunctions of fragments in the language of the adapter do not fail. -/
theorem failure?_all (h : ∀ part ∈ parts, accepts adapter part = true) :
    failure? (all adapter parts) = none := by
  cases adapter with
  | sql dialect =>
    obtain ⟨conditions, hconditions⟩ := mapM_of_accepts (fun _ => expectCondition_of_accepts) h
    rw [all, hconditions]
    rfl
  | search =>
    obtain ⟨queries, hqueries⟩ := mapM_of_accepts (fun _ => expectQuery_of_accepts) h
    rw [all, hqueries]
    rfl

/-- Disjunctions do not either. -/
theorem failure?_any (h : ∀ part ∈ parts, accepts adapter part = true) :
    failure? (any adapter parts) = none := by
  cases adapter with
  | sql dialect =>
    obtain ⟨conditions, hconditions⟩ := mapM_of_accepts (fun _ => expectCondition_of_accepts) h
    rw [any, hconditions]
    rfl
  | search =>
    obtain ⟨queries, hqueries⟩ := mapM_of_accepts (fun _ => expectQuery_of_accepts) h
    rw [any, hqueries]
    rfl

/-- Nor do negations. -/
theorem failure?_negate (h : accepts adapter part = true) :
    failure? (negate adapter part) = none := by
  cases adapter with
  | sql dialect =>
    obtain ⟨condition, hcondition⟩ := expectCondition_of_accepts h
    rw [negate, hcondition]
    rfl
  | search =>
    obtain ⟨query, hquery⟩ := expectQuery_of_accepts h
    rw [negate, hquery]
    rfl

/-- What an adapter combines is in its language again. -/
theorem accepts_all (h : all adapter parts = .ok whole) : accepts adapter whole = true := by
  cases adapter <;>
    obtain ⟨_, -, h⟩ := bind_eq_ok.1 h <;>
    obtain rfl := Except.ok.inj h <;>
    rfl

theorem accepts_any (h : any adapter parts = .ok whole) : accepts adapter whole = true := by
  cases adapter <;>
    obtain ⟨_, -, h⟩ := bind_eq_ok.1 h <;>
    obtain rfl := Except.ok.inj h <;>
    rfl

theorem accepts_negate (h : negate adapter part = .ok whole) : accepts adapter whole = true := by
  cases adapter <;>
    obtain ⟨_, -, h⟩ := bind_eq_ok.1 h <;>
    obtain rfl := Except.ok.inj h <;>
    rfl

theorem accepts_leaf {bound : Nat} {field : Field} {op : Operator} {operand : Json}
    {values : List Json} (h : leaf adapter bound field op operand = .ok (whole, values)) :
    accepts adapter whole = true := by
  cases adapter <;>
    obtain ⟨_, -, h⟩ := bind_eq_ok.1 h <;>
    obtain ⟨rfl, -⟩ := Prod.mk.inj (Except.ok.inj h) <;>
    rfl

end Fragment

/-! ### Leaves -/

namespace Sql

variable {dialect : Dialect} {field : Field} {op : Operator} {operand : Json}

theorem failure?_membership {positive : Bool} (bound other : Nat) :
    failure? (membership bound field op positive operand) =
      failure? (membership other field op positive operand) := by
  cases operand with
  | array items =>
    -- the empty list is a constant and does not fail either
    cases items <;> rfl
  | _ => rfl

theorem failure?_literalMatch {placement : Placement} (bound other : Nat) :
    failure? (literalMatch dialect bound field op placement operand) =
      failure? (literalMatch dialect other field op placement operand) := by
  cases operand <;> rfl

theorem failure?_arrayTest {test : Nat → Test} (bound other : Nat) :
    failure? (arrayTest dialect bound field op operand test) =
      failure? (arrayTest dialect other field op operand test) := by
  unfold arrayTest
  split <;> rfl

/-- Whether a leaf fails does not depend on the values bound before it. -/
theorem failure?_leaf (bound other : Nat) :
    failure? (leaf dialect bound field op operand) =
      failure? (leaf dialect other field op operand) := by
  cases op with
  | isIn | notIn => exact failure?_membership bound other
  | contains =>
    simp only [leaf]
    split
    · exact failure?_arrayTest bound other
    · exact failure?_literalMatch bound other
  | startsWith | endsWith => exact failure?_literalMatch bound other
  | overlaps => exact failure?_arrayTest bound other
  | between =>
    simp only [leaf]
    split <;> rfl
  | isNull => cases operand <;> rfl
  | _ => rfl

end Sql

namespace Filter

variable {scope : Scope}

theorem failure?_compileField {name : String} {op : Operator} {operand : Json} (bound other : Nat) :
    failure? (compileField scope bound name op operand) =
      failure? (compileField scope other name op operand) := by
  unfold compileField
  cases scope.field? name with
  | none => rfl
  | some declared =>
    dsimp only
    split
    · unfold Fragment.leaf
      cases scope.adapter with
      | sql dialect => exact failure?_bind_congr (Sql.failure?_leaf bound other) fun _ _ => rfl
      | search => rfl
    · rfl

theorem failure?_compileCustom {name key : String} {operand : Json} (bound other : Nat) :
    failure? (compileCustom scope bound name key operand) =
      failure? (compileCustom scope other name key operand) := by
  unfold compileCustom
  cases scope.custom.get? scope.entity name key with
  | none => rfl
  | some answer =>
    -- the same answer is put into the adapter's language, or refused there
    dsimp only
    cases answer _ with
    | error fault => rfl
    | ok custom =>
      change failure? (ofCustom scope.adapter bound custom) =
        failure? (ofCustom scope.adapter other custom)
      unfold ofCustom
      cases custom <;> cases scope.adapter <;> rfl

/-- An answer of a custom filter in another language is refused. -/
theorem accepts_of_ofCustom {adapter : Adapter} {bound : Nat} {custom : CustomFragment}
    {fragment : Fragment} {values : List Json}
    (h : ofCustom adapter bound custom = .ok (fragment, values)) :
    Fragment.accepts adapter fragment = true := by
  unfold ofCustom at h
  cases custom <;> cases adapter <;>
    first
    | cases h
      rfl
    | cases h

section

variable {α : Type} {inner : Except CompileError (α × List Json)}
  (combine : α → Except CompileError Fragment)

/-- A combinator fails as what is below it, if the combination does not fail. -/
theorem failure?_combine
    (hcombine : ∀ part values, inner = .ok (part, values) → failure? (combine part) = none) :
    failure? (do
      let (part, values) ← inner
      return (← combine part, values)) = failure? inner := by
  refine failure?_bind fun pair hpair => ?_
  have hrest : failure? (combine pair.1 >>= fun whole => pure (whole, pair.2)) =
      failure? (combine pair.1) := failure?_bind fun _ _ => rfl
  exact hrest.trans (hcombine pair.1 pair.2 hpair)

end

/-- What the compiler answers with is in the language of the adapter. -/
theorem accepts_of_lower {filter : Filter} {bound : Nat} {fragment : Fragment}
    {values : List Json} (h : lower scope bound filter = .ok (fragment, values)) :
    Fragment.accepts scope.adapter fragment = true := by
  cases filter with
  | all parts =>
    obtain ⟨fragments, -, hwhole⟩ := lower_all_eq_ok h
    exact Fragment.accepts_all hwhole
  | any parts =>
    obtain ⟨fragments, -, hwhole⟩ := lower_any_eq_ok h
    exact Fragment.accepts_any hwhole
  | not part =>
    obtain ⟨inner, -, hwhole⟩ := lower_not_eq_ok h
    exact Fragment.accepts_negate hwhole
  | field name op operand =>
    rw [lower, compileField] at h
    split at h
    · cases h
    · split at h
      · exact Fragment.accepts_leaf h
      · cases h
  | custom name key operand =>
    rw [lower, compileCustom] at h
    split at h
    · cases h
    · obtain ⟨custom, -, h⟩ := bind_eq_ok.1 h
      exact accepts_of_ofCustom h

theorem accepts_of_lowerAll {parts : List Filter} :
    ∀ {bound : Nat} {fragments : List Fragment} {values : List Json},
      lowerAll scope bound parts = .ok (fragments, values) →
        ∀ fragment ∈ fragments, Fragment.accepts scope.adapter fragment = true := by
  induction parts with
  | nil =>
    intro bound fragments values h
    obtain ⟨rfl, -⟩ := lowerAll_nil_eq_ok h
    simp
  | cons part parts ih =>
    intro bound fragments values h
    obtain ⟨first, _, others, _, hfirst, hothers, rfl, -⟩ := lowerAll_cons_eq_ok h
    exact List.forall_mem_cons.2 ⟨accepts_of_lower hfirst, ih hothers⟩

/-! ### Filters -/

mutual

/-- **A filter fails as the first of its leaves that fails alone.** -/
theorem failure?_lower (filter : Filter) (bound : Nat) :
    failure? (lower scope bound filter) =
      filter.leaves.findSome? fun leaf => failure? (lower scope 0 leaf) := by
  cases filter with
  | all parts =>
    rw [leaves_all, ← failure?_lowerAll parts bound, lower]
    exact failure?_combine _ fun _ _ h => Fragment.failure?_all (accepts_of_lowerAll h)
  | any parts =>
    rw [leaves_any, ← failure?_lowerAll parts bound, lower]
    exact failure?_combine _ fun _ _ h => Fragment.failure?_any (accepts_of_lowerAll h)
  | not part =>
    rw [leaves_not, ← failure?_lower part bound, lower]
    exact failure?_combine _ fun _ _ h => Fragment.failure?_negate (accepts_of_lower h)
  | field name op operand =>
    rw [leaves_field, List.findSome?_singleton, lower, lower]
    exact failure?_compileField bound 0
  | custom name key operand =>
    rw [leaves_custom, List.findSome?_singleton, lower, lower]
    exact failure?_compileCustom bound 0
termination_by sizeOf filter

theorem failure?_lowerAll (parts : List Filter) (bound : Nat) :
    failure? (lowerAll scope bound parts) =
      (parts.flatMap leaves).findSome? fun leaf => failure? (lower scope 0 leaf) := by
  match parts with
  | [] => rw [lowerAll, List.flatMap_nil, List.findSome?_nil, failure?_ok]
  | part :: rest =>
    rw [List.flatMap_cons, List.findSome?_append, ← failure?_lower part bound, lowerAll]
    cases hpart : lower scope bound part with
    | error fault => rfl
    | ok pair =>
      -- the part compiles, so the rest decides, wherever its numbers begin
      obtain ⟨fragment, values⟩ := pair
      rw [failure?_ok, Option.none_or, ← failure?_lowerAll rest (bound + values.length)]
      change failure? (lowerAll scope (bound + values.length) rest >>= _) = _
      exact failure?_bind fun _ _ => rfl
termination_by sizeOf parts

end

/-- The same for a whole filter, whose leaves are compiled as filters of their own. -/
theorem failure?_compile (filter : Filter) :
    failure? (filter.compile scope) =
      filter.leaves.findSome? fun leaf => failure? (leaf.compile scope) := by
  have hcompile : ∀ filter : Filter,
      failure? (filter.compile scope) = failure? (lower scope 0 filter) :=
    fun _ => failure?_bind fun _ _ => rfl
  simp only [hcompile]
  exact failure?_lower filter 0

end Filter

end Criteria
