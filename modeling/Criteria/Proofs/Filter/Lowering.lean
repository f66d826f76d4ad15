import Criteria.Filter.Compile
import Criteria.Proofs.Outcome

/-!
# What a filter is compiled to

Under a SQL dialect a filter that compiles becomes a condition and the values it binds. `Lowers`
states the outcome as a relation, one rule for each sort of node, so that what holds of all compiled
filters is proved by induction on its derivations, without the compiler's monad and its tests of
which language a fragment is in.

* `Lowers`, `LowersAll` — a filter, or a list of them, becomes a condition and binds values, behind
  a number of values bound before;
* `lower_all_eq_ok`, `lower_any_eq_ok`, `lower_not_eq_ok`, `lowerAll_cons_eq_ok` — what a success of
  the compiler means, under every adapter;
* `lowers_of_lower` — whatever the compiler answers, the relation holds of it;
* `compile_eq_ok` — the same for a whole filter, with nothing bound before it.
-/

namespace Criteria.Filter

open Sql (Condition)

/-- What a custom filter is called with for an operand. The column of a computed field is its
name. -/
def customCall (scope : Scope) (name : String) (operand : Json) : CustomCall :=
  ⟨scope.adapter, scope.adapter.quote (((scope.field? name).map Field.reference).getD name),
    operand⟩

mutual

/-- A filter becomes a condition and binds values, behind `bound` other values. -/
inductive Lowers (scope : Scope) (dialect : Dialect) :
    Nat → Filter → Condition → List Json → Prop
  | all {bound : Nat} {parts : List Filter} {conditions : List Condition} {values : List Json} :
    LowersAll scope dialect bound parts conditions values →
      Lowers scope dialect bound (.all parts) (Condition.allOf conditions) values
  | any {bound : Nat} {parts : List Filter} {conditions : List Condition} {values : List Json} :
    LowersAll scope dialect bound parts conditions values →
      Lowers scope dialect bound (.any parts) (Condition.anyOf conditions) values
  | not {bound : Nat} {part : Filter} {condition : Condition} {values : List Json} :
    Lowers scope dialect bound part condition values →
      Lowers scope dialect bound (.not part) (.not condition) values
  | field {bound : Nat} {name : String} {op : Operator} {operand : Json} {declared : Field}
      {condition : Condition} {values : List Json} :
    scope.field? name = some declared →
      scope.registry.isLegal declared.kind scope.adapter op = true →
      Sql.leaf dialect bound declared op operand = .ok (condition, values) →
      Lowers scope dialect bound (.field name op operand) condition values
  | custom {bound : Nat} {name key : String} {operand : Json} {answer : CustomFilter}
      {pieces : List CustomPiece} :
    scope.custom.get? scope.entity name key = some answer →
      answer (customCall scope name operand) = .ok (.sql pieces) →
      Lowers scope dialect bound (.custom name key operand)
        (.custom (bindPieces bound pieces).1) (bindPieces bound pieces).2

/-- Filters become conditions in turn, and their values are numbered one after the other. -/
inductive LowersAll (scope : Scope) (dialect : Dialect) :
    Nat → List Filter → List Condition → List Json → Prop
  | nil {bound : Nat} : LowersAll scope dialect bound [] [] []
  | cons {bound : Nat} {part : Filter} {parts : List Filter} {condition : Condition}
      {conditions : List Condition} {values others : List Json} :
    Lowers scope dialect bound part condition values →
      LowersAll scope dialect (bound + values.length) parts conditions others →
      LowersAll scope dialect bound (part :: parts) (condition :: conditions) (values ++ others)

end

/-! ### Filters without custom leaves -/

mutual

/-- Whether a filter has no custom leaves. -/
def isBuiltin : Filter → Bool
  | .all parts => areBuiltin parts
  | .any parts => areBuiltin parts
  | .not part => isBuiltin part
  | .field .. => true
  | .custom .. => false

/-- Whether filters have no custom leaves. -/
def areBuiltin : List Filter → Bool
  | [] => true
  | part :: parts => isBuiltin part && areBuiltin parts

end

variable {scope : Scope} {dialect : Dialect}

/-! ### The steps of the compiler -/

section Steps

variable {bound : Nat} {fragment : Fragment} {values : List Json}

/-- A combinator compiles if what is below it does and what comes of it can be combined. -/
theorem combine_eq_ok {α : Type} {inner : Except CompileError (α × List Json)}
    {combine : α → Except CompileError Fragment}
    (h : (do
      let (part, values) ← inner
      return (← combine part, values)) = .ok (fragment, values)) :
    ∃ part, inner = .ok (part, values) ∧ combine part = .ok fragment := by
  obtain ⟨⟨part, bindings⟩, hinner, h⟩ := bind_eq_ok.1 h
  obtain ⟨whole, hwhole, h⟩ := bind_eq_ok.1 h
  obtain ⟨rfl, rfl⟩ := Prod.mk.inj (Except.ok.inj h)
  exact ⟨part, hinner, hwhole⟩

theorem lower_all_eq_ok {parts : List Filter}
    (h : lower scope bound (.all parts) = .ok (fragment, values)) :
    ∃ fragments, lowerAll scope bound parts = .ok (fragments, values) ∧
      Fragment.all scope.adapter fragments = .ok fragment := by
  rw [lower] at h
  exact combine_eq_ok h

theorem lower_any_eq_ok {parts : List Filter}
    (h : lower scope bound (.any parts) = .ok (fragment, values)) :
    ∃ fragments, lowerAll scope bound parts = .ok (fragments, values) ∧
      Fragment.any scope.adapter fragments = .ok fragment := by
  rw [lower] at h
  exact combine_eq_ok h

theorem lower_not_eq_ok {part : Filter}
    (h : lower scope bound (.not part) = .ok (fragment, values)) :
    ∃ inner, lower scope bound part = .ok (inner, values) ∧
      Fragment.negate scope.adapter inner = .ok fragment := by
  rw [lower] at h
  exact combine_eq_ok h

theorem lowerAll_nil_eq_ok {fragments : List Fragment}
    (h : lowerAll scope bound [] = .ok (fragments, values)) : fragments = [] ∧ values = [] := by
  rw [lowerAll] at h
  obtain ⟨rfl, rfl⟩ := Prod.mk.inj (Except.ok.inj h)
  exact ⟨rfl, rfl⟩

/-- Filters compile one after the other, each behind the values of those before it. -/
theorem lowerAll_cons_eq_ok {part : Filter} {rest : List Filter} {fragments : List Fragment}
    (h : lowerAll scope bound (part :: rest) = .ok (fragments, values)) :
    ∃ first own others more, lower scope bound part = .ok (first, own) ∧
      lowerAll scope (bound + own.length) rest = .ok (others, more) ∧
      fragments = first :: others ∧ values = own ++ more := by
  rw [lowerAll] at h
  obtain ⟨⟨first, own⟩, hpart, h⟩ := bind_eq_ok.1 h
  obtain ⟨⟨others, more⟩, hrest, h⟩ := bind_eq_ok.1 h
  obtain ⟨rfl, rfl⟩ := Prod.mk.inj (Except.ok.inj h)
  exact ⟨first, own, others, more, hpart, hrest, rfl, rfl⟩

end Steps

/-- A leaf compiles to what its dialect makes of it. -/
theorem compileField_eq_ok (hadapter : scope.adapter = .sql dialect) {bound : Nat} {name : String}
    {op : Operator} {operand : Json} {fragment : Fragment} {values : List Json}
    (h : compileField scope bound name op operand = .ok (fragment, values)) :
    ∃ condition, fragment = .sql condition ∧
      Lowers scope dialect bound (.field name op operand) condition values := by
  unfold compileField at h
  -- the field is declared, then the operator legal, then the leaf compiles
  split at h
  · cases h
  · next declared hdeclared =>
    split at h
    · next hlegal =>
      rw [hadapter] at h
      obtain ⟨⟨condition, bindings⟩, hleaf, h⟩ := bind_eq_ok.1 h
      obtain ⟨rfl, rfl⟩ := Prod.mk.inj (Except.ok.inj h)
      exact ⟨condition, rfl, .field hdeclared hlegal hleaf⟩
    · cases h

/-- A custom leaf compiles to the text its filter answers with, in the adapter's language. -/
theorem compileCustom_eq_ok (hadapter : scope.adapter = .sql dialect) {bound : Nat}
    {name key : String} {operand : Json} {fragment : Fragment} {values : List Json}
    (h : compileCustom scope bound name key operand = .ok (fragment, values)) :
    ∃ condition, fragment = .sql condition ∧
      Lowers scope dialect bound (.custom name key operand) condition values := by
  unfold compileCustom at h
  split at h
  · cases h
  · next answer hanswer =>
    obtain ⟨custom, hcustom, h⟩ := bind_eq_ok.1 h
    -- a document would be refused here
    rw [hadapter] at h
    cases custom with
    | document document => cases h
    | sql pieces =>
      obtain ⟨rfl, rfl⟩ := Prod.mk.inj (Except.ok.inj h)
      exact ⟨_, rfl, .custom hanswer hcustom⟩

/-- A built-in leaf compiles if it is legal on its field and its dialect has it. -/
theorem lower_field (hadapter : scope.adapter = .sql dialect) {bound : Nat} {name : String}
    {op : Operator} {operand : Json} {declared : Field} {condition : Condition}
    {values : List Json} (hdeclared : scope.field? name = some declared)
    (hlegal : scope.registry.isLegal declared.kind scope.adapter op = true)
    (hleaf : Sql.leaf dialect bound declared op operand = .ok (condition, values)) :
    lower scope bound (.field name op operand) = .ok (.sql condition, values) := by
  rw [lower, compileField, hdeclared]
  dsimp only
  rw [if_pos hlegal, hadapter, Fragment.leaf, hleaf]
  rfl

/-- A custom leaf compiles if its filter answers with a text. -/
theorem lower_custom (hadapter : scope.adapter = .sql dialect) {bound : Nat} {name key : String}
    {operand : Json} {answer : CustomFilter} {pieces : List CustomPiece}
    (hanswer : scope.custom.get? scope.entity name key = some answer)
    (hpieces : answer (customCall scope name operand) = .ok (.sql pieces)) :
    lower scope bound (.custom name key operand) =
      .ok (.sql (.custom (bindPieces bound pieces).1), (bindPieces bound pieces).2) := by
  rw [customCall] at hpieces
  rw [lower, compileCustom, hanswer]
  dsimp only
  rw [hpieces, hadapter]
  rfl

/-- Fragments of a list that are all conditions. -/
theorem mapM_expectCondition (conditions : List Condition) :
    (conditions.map Fragment.sql).mapM (Fragment.expectCondition dialect) = .ok conditions := by
  refine mapM_map_eq_ok (fun condition => ?_) conditions
  rfl

mutual

/-- **What the compiler answers is what a filter becomes.** -/
theorem lowers_of_lower (hadapter : scope.adapter = .sql dialect) (filter : Filter) {bound : Nat}
    {fragment : Fragment} {values : List Json}
    (h : lower scope bound filter = .ok (fragment, values)) :
    ∃ condition, fragment = .sql condition ∧
      Lowers scope dialect bound filter condition values := by
  cases filter with
  | all parts =>
    obtain ⟨fragments, hparts, hwhole⟩ := lower_all_eq_ok h
    obtain ⟨conditions, rfl, hlowers⟩ := lowersAll_of_lowerAll hadapter parts hparts
    -- the parts are conditions, so putting them together cannot fail
    rw [hadapter, Fragment.all, mapM_expectCondition] at hwhole
    obtain rfl := Except.ok.inj hwhole
    exact ⟨_, rfl, .all hlowers⟩
  | any parts =>
    obtain ⟨fragments, hparts, hwhole⟩ := lower_any_eq_ok h
    obtain ⟨conditions, rfl, hlowers⟩ := lowersAll_of_lowerAll hadapter parts hparts
    rw [hadapter, Fragment.any, mapM_expectCondition] at hwhole
    obtain rfl := Except.ok.inj hwhole
    exact ⟨_, rfl, .any hlowers⟩
  | not part =>
    obtain ⟨inner, hpart, hwhole⟩ := lower_not_eq_ok h
    obtain ⟨condition, rfl, hlowers⟩ := lowers_of_lower hadapter part hpart
    rw [hadapter] at hwhole
    obtain rfl := Except.ok.inj hwhole
    exact ⟨_, rfl, .not hlowers⟩
  | field name op operand =>
    rw [lower] at h
    exact compileField_eq_ok hadapter h
  | custom name key operand =>
    rw [lower] at h
    exact compileCustom_eq_ok hadapter h
termination_by sizeOf filter

theorem lowersAll_of_lowerAll (hadapter : scope.adapter = .sql dialect) (parts : List Filter)
    {bound : Nat} {fragments : List Fragment} {values : List Json}
    (h : lowerAll scope bound parts = .ok (fragments, values)) :
    ∃ conditions, fragments = conditions.map .sql ∧
      LowersAll scope dialect bound parts conditions values := by
  cases parts with
  | nil =>
    obtain ⟨rfl, rfl⟩ := lowerAll_nil_eq_ok h
    exact ⟨[], rfl, .nil⟩
  | cons part rest =>
    obtain ⟨first, own, others, more, hpart, hrest, rfl, rfl⟩ := lowerAll_cons_eq_ok h
    obtain ⟨condition, rfl, hlowers⟩ := lowers_of_lower hadapter part hpart
    obtain ⟨conditions, rfl, hlowersAll⟩ := lowersAll_of_lowerAll hadapter rest hrest
    exact ⟨condition :: conditions, rfl, .cons hlowers hlowersAll⟩
termination_by sizeOf parts

end

/-- A compiled filter is a condition in the scope's dialect, with its values. -/
theorem compile_eq_ok (hadapter : scope.adapter = .sql dialect) {filter : Filter}
    {predicate : Predicate} (h : filter.compile scope = .ok predicate) :
    ∃ condition, Lowers scope dialect 0 filter condition predicate.params ∧
      predicate = ⟨.sql dialect, .sql condition, predicate.params⟩ := by
  obtain ⟨⟨fragment, params⟩, hlower, h⟩ := bind_eq_ok.1 h
  obtain rfl := Except.ok.inj h
  obtain ⟨condition, rfl, hlowers⟩ := lowers_of_lower hadapter filter hlower
  exact ⟨condition, hlowers, by rw [hadapter]⟩

end Criteria.Filter
