import Criteria.Proofs.Filter.Lowering
import Criteria.Proofs.Sql.Placeholders
import Criteria.Proofs.Sql.Reading
import Mathlib.Data.List.Nodup

/-!
# Placeholders and parameters stay together

A compiled filter has its values apart from its text, and the text refers to them by placeholders.
The values are collected while the parts are compiled, and the text is put together afterwards from
what the parts became. That the two agree is an invariant of compiling behind `bound` other values:
the text of a part has the placeholders of exactly the values the part binds, numbered on from
`bound`, and a list of parts hands the count on from one part to the next.

* `Filter.bindings` — the values a filter should bind, leaf by leaf from left to right;
* `Lowers.holds` — the invariant;
* `compile_parameters` — the placeholders of a compiled filter are numbered from one, and its values
  are those of its leaves. A search document binds nothing.
-/

namespace Criteria.Filter

open Sql (Condition Holds chars spelled)

/-! ### The values a filter should bind -/

section Bindings

variable (scope : Scope) (dialect : Dialect)

mutual

/-- The values of the leaves of a filter, from left to right. -/
def bindings : Filter → List Json
  | .all parts => bindingsAll parts
  | .any parts => bindingsAll parts
  | .not part => bindings part
  | .field name op operand =>
    match scope.field? name with
    | some declared => Sql.leafBindings dialect declared.kind op operand
    | none => []
  | .custom .. => []

/-- The values of the leaves of filters in turn. -/
def bindingsAll : List Filter → List Json
  | [] => []
  | part :: parts => bindings part ++ bindingsAll parts

end

end Bindings

variable {scope : Scope} {dialect : Dialect}

mutual

/-- The values a filter binds are those of its leaves. -/
theorem Lowers.bindings {bound : Nat} {filter : Filter} {condition : Condition}
    {values : List Json} :
    Lowers scope dialect bound filter condition values → filter.isBuiltin = true →
      values = filter.bindings scope dialect
  | .all hparts, hbuiltin => by
    rw [isBuiltin] at hbuiltin
    rw [Filter.bindings, ← hparts.bindingsAll hbuiltin]
  | .any hparts, hbuiltin => by
    rw [isBuiltin] at hbuiltin
    rw [Filter.bindings, ← hparts.bindingsAll hbuiltin]
  | .not hpart, hbuiltin => by
    rw [isBuiltin] at hbuiltin
    rw [Filter.bindings, ← hpart.bindings hbuiltin]
  | .field hdeclared _ hleaf, _ => by
    rw [Filter.bindings, hdeclared]
    rcases Sql.leaf_eq_ok hleaf with ⟨value, -, rfl, -, hbindings⟩ | ⟨check, -, hspec⟩
    · exact hbindings.symm
    · exact hspec.bindings
  | .custom _ _, hbuiltin => by
    rw [isBuiltin] at hbuiltin
    cases hbuiltin

theorem LowersAll.bindingsAll {bound : Nat} {parts : List Filter} {conditions : List Condition}
    {values : List Json} :
    LowersAll scope dialect bound parts conditions values → areBuiltin parts = true →
      values = Filter.bindingsAll scope dialect parts
  | .nil, _ => by rw [Filter.bindingsAll]
  | .cons hpart hparts, hbuiltin => by
    rw [areBuiltin, Bool.and_eq_true] at hbuiltin
    rw [Filter.bindingsAll, ← hpart.bindings hbuiltin.1, ← hparts.bindingsAll hbuiltin.2]

end

/-! ### The placeholders of the text -/

/-- Only no numbers belong to an empty text. -/
theorem eq_nil_of_holds_nil {numbers : List Nat} (h : Holds dialect [] numbers) : numbers = [] := by
  have hnone := Sql.placeholders?_of_holds h
  exact List.map_eq_nil_iff.1 (Option.some.inj hnone).symm

theorem holds_allOf {conditions : List Condition} {numbers : List Nat}
    (h : Holds dialect (chars dialect (Condition.joined dialect " AND " conditions)) numbers) :
    Holds dialect (chars dialect ((Condition.allOf conditions).pieces dialect)) numbers := by
  match conditions with
  | [] =>
    -- no part has bound anything, and the constant has no placeholder either
    obtain rfl := eq_nil_of_holds_nil h
    exact Holds.constant true
  | [condition] => exact h
  | first :: next :: rest =>
    change Holds dialect (chars dialect ((Condition.all _).pieces dialect)) numbers
    rw [Condition.pieces]
    simpa using h.enclose

theorem holds_anyOf {conditions : List Condition} {numbers : List Nat}
    (h : Holds dialect (chars dialect (Condition.joined dialect " OR " conditions)) numbers) :
    Holds dialect (chars dialect ((Condition.anyOf conditions).pieces dialect)) numbers := by
  match conditions with
  | [] =>
    obtain rfl := eq_nil_of_holds_nil h
    exact Holds.constant false
  | [condition] => exact h
  | first :: next :: rest =>
    change Holds dialect (chars dialect ((Condition.any _).pieces dialect)) numbers
    rw [Condition.pieces]
    simpa using h.enclose

mutual

/-- **The placeholders of a part are those of the values it binds.** -/
theorem Lowers.holds {bound : Nat} {filter : Filter} {condition : Condition}
    {values : List Json} :
    Lowers scope dialect bound filter condition values → filter.isBuiltin = true →
      Holds dialect (chars dialect (condition.pieces dialect))
        (List.range' (bound + 1) values.length)
  | .all hparts, hbuiltin => by
    rw [isBuiltin] at hbuiltin
    exact holds_allOf (hparts.holds_joined hbuiltin Sql.isConnective_and)
  | .any hparts, hbuiltin => by
    rw [isBuiltin] at hbuiltin
    exact holds_anyOf (hparts.holds_joined hbuiltin Sql.isConnective_or)
  | .not hpart, hbuiltin => by
    rw [isBuiltin] at hbuiltin
    rw [Condition.pieces]
    simpa using (hpart.holds hbuiltin).negate
  | .field _ _ hleaf, _ => by
    rcases Sql.leaf_eq_ok hleaf with ⟨value, rfl, rfl, -, -⟩ | ⟨check, rfl, hspec⟩
    · have htext : chars dialect ((Condition.constant value).pieces dialect) =
          (if value then "1=1" else "1=0").toList := by
        cases value <;> simp [Condition.pieces]
      rw [htext]
      exact Holds.constant value
    · rw [Condition.pieces, ← hspec.params]
      exact Holds.test _ hspec.suits
  | .custom _ _, hbuiltin => by
    rw [isBuiltin] at hbuiltin
    cases hbuiltin

theorem LowersAll.holds_joined {bound : Nat} {parts : List Filter} {conditions : List Condition}
    {values : List Json} {connective : String} :
    LowersAll scope dialect bound parts conditions values → areBuiltin parts = true →
      Sql.IsConnective connective →
        Holds dialect (chars dialect (Condition.joined dialect connective conditions))
          (List.range' (bound + 1) values.length)
  | .nil, _, _ => ⟨[], Sql.Lexes.nil, rfl⟩
  | .cons hpart .nil, hbuiltin, _ => by
    rw [areBuiltin, Bool.and_eq_true] at hbuiltin
    rw [List.append_nil]
    exact hpart.holds hbuiltin.1
  | .cons hpart (.cons hnext hrest), hbuiltin, hconnective => by
    rw [areBuiltin, Bool.and_eq_true] at hbuiltin
    have hfirst := hpart.holds hbuiltin.1
    have hothers := (LowersAll.cons hnext hrest).holds_joined hbuiltin.2 hconnective
    -- the count goes on where the first part left it
    rw [Condition.chars_joined_cons_cons, List.length_append, ← List.range'_append_1]
    rw [Nat.add_right_comm] at hothers
    exact hfirst.connective hconnective hothers

end

/-! ### Search documents bind nothing -/

/-- A leaf of a search document holds its operand itself. -/
theorem leaf_search {field : Field} {op : Operator} {operand : Json} {bound : Nat}
    {fragment : Fragment} {values : List Json}
    (h : Fragment.leaf .search bound field op operand = .ok (fragment, values)) : values = [] := by
  obtain ⟨query, -, h⟩ := bind_eq_ok.1 h
  exact ((Prod.mk.inj (Except.ok.inj h)).2).symm

mutual

theorem values_of_lower_search (hadapter : scope.adapter = .search) (filter : Filter) {bound : Nat}
    {fragment : Fragment} {values : List Json}
    (h : lower scope bound filter = .ok (fragment, values)) : values = [] := by
  -- only leaves bind values, and none of them does under a search adapter
  cases filter with
  | all parts =>
    obtain ⟨fragments, hparts, -⟩ := lower_all_eq_ok h
    exact values_of_lowerAll_search hadapter parts hparts
  | any parts =>
    obtain ⟨fragments, hparts, -⟩ := lower_any_eq_ok h
    exact values_of_lowerAll_search hadapter parts hparts
  | not part =>
    obtain ⟨inner, hpart, -⟩ := lower_not_eq_ok h
    exact values_of_lower_search hadapter part hpart
  | field name op operand =>
    rw [lower, compileField] at h
    split at h
    · cases h
    · split at h
      · rw [hadapter] at h
        exact leaf_search h
      · cases h
  | custom name key operand =>
    rw [lower, compileCustom] at h
    split at h
    · cases h
    · obtain ⟨answer, -, h⟩ := bind_eq_ok.1 h
      rw [hadapter] at h
      cases answer with
      | sql pieces => cases h
      | document document => exact ((Prod.mk.inj (Except.ok.inj h)).2).symm
termination_by sizeOf filter

theorem values_of_lowerAll_search (hadapter : scope.adapter = .search) (parts : List Filter)
    {bound : Nat} {fragments : List Fragment} {values : List Json}
    (h : lowerAll scope bound parts = .ok (fragments, values)) : values = [] := by
  cases parts with
  | nil => exact (lowerAll_nil_eq_ok h).2
  | cons part rest =>
    obtain ⟨first, own, others, more, hpart, hrest, -, rfl⟩ := lowerAll_cons_eq_ok h
    rw [values_of_lower_search hadapter part hpart, values_of_lowerAll_search hadapter rest hrest]
    rfl
termination_by sizeOf parts

end

/-! ### Compiled filters -/

/-- **Placeholders and parameters stay together.** Under a dialect, the placeholders of the text of
a compiled filter of built-in leaves are those numbered from one up to the number of its parameters,
in this order and each of them once, and the parameters are the values of the leaves from left to
right. A search document has no parameters, whatever leaves the filter has. -/
theorem compile_parameters {filter : Filter} {predicate : Predicate}
    (h : filter.compile scope = .ok predicate) :
    (∀ dialect, scope.adapter = .sql dialect → filter.isBuiltin = true →
      predicate.params = filter.bindings scope dialect ∧
      ∃ sql placeholders, predicate.sql? = some sql ∧
        Sql.placeholders? dialect sql.toList = some placeholders ∧
        placeholders.length = predicate.params.length ∧
        (∀ k < predicate.params.length,
          placeholders[k]? = some (dialect.placeholder.text (k + 1)).toList) ∧
        (dialect.placeholder ≠ .question → placeholders.Nodup)) ∧
    (scope.adapter = .search → predicate.params = []) := by
  constructor
  · intro dialect hadapter hbuiltin
    obtain ⟨condition, hlowers, hpredicate⟩ := compile_eq_ok hadapter h
    have hholds := Sql.placeholders?_of_holds (hlowers.holds hbuiltin)
    refine ⟨hlowers.bindings hbuiltin, condition.text dialect, _, by rw [hpredicate]; rfl, hholds,
      by simp, ?_, ?_⟩
    · intro k hk
      simp [hk, spelled, Nat.add_comm 1 k]
    · intro hnumbered
      exact List.Nodup.map (Sql.spelled_injective dialect hnumbered) List.nodup_range'
  · intro hadapter
    obtain ⟨⟨fragment, params⟩, hlower, h⟩ := bind_eq_ok.1 h
    obtain rfl := Except.ok.inj h
    exact values_of_lower_search hadapter filter hlower

/-- A range, an empty list, a list, a pattern and a test for null next to each other, with a quoted
column that looks like a placeholder, and the same filter as a search document. -/
theorem compile_parameters_mixed :
    let scope (adapter : Adapter) : Scope :=
      ⟨"User", ⟨.ofList [("User", ⟨"User",
          [⟨"age", "$9", .integer, true, true⟩, .declare "name" .string]⟩)]⟩,
        .empty, adapter, .empty, {}⟩
    let filter : Filter :=
      .all [.field "age" .between (.array [.int 1, .int 9]),
        .not (.any [.field "name" .isIn (.array []), .field "age" .isIn (.array [.int 3, .int 4])]),
        .field "name" .startsWith (.string "a_"), .field "name" .isNull (.bool false)]
    let predicate : Predicate :=
      ⟨.sql .postgres, .sql (.all [.test "$9" (.between 1 2),
          .not (.any [.constant false, .test "$9" (.among true [3, 4])]),
          .test "name" (.likeEscaped 5), .test "name" (.isNull false)]),
        [.int 1, .int 9, .int 3, .int 4, .string "a!_%"]⟩
    (filter.compile (scope (.sql .postgres)) = .ok predicate ∧
      predicate.params = filter.bindings (scope (.sql .postgres)) .postgres ∧
      ∃ sql placeholders, predicate.sql? = some sql ∧
        Sql.placeholders? .postgres sql.toList = some placeholders ∧
        placeholders.length = 5 ∧ placeholders[4]? = some ['$', '5'] ∧ placeholders.Nodup) ∧
    ∃ document, filter.compile (scope .search) = .ok document ∧ document.params = [] := by
  intro scope filter predicate
  constructor
  · have hcompile : filter.compile (scope (.sql .postgres)) = .ok predicate := rfl
    obtain ⟨hparams, sql, placeholders, hsql, hplaceholders, hlength, hspelled, hnodup⟩ :=
      (compile_parameters hcompile).1 .postgres rfl rfl
    exact ⟨hcompile, hparams, sql, placeholders, hsql, hplaceholders, hlength,
      hspelled 4 (by decide), hnodup (by decide)⟩
  · obtain ⟨document, hcompile⟩ : ∃ document, filter.compile (scope .search) = .ok document :=
      ⟨_, rfl⟩
    exact ⟨document, hcompile, (compile_parameters hcompile).2 rfl⟩

end Criteria.Filter
