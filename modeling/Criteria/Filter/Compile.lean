import Criteria.Filter.Basic
import Criteria.Native.Fragment
import Criteria.Scope

/-!
# Compiling filters

A filter is compiled by recursion over its tree. Leaves are checked against the scope once more,
because a tree may have been built by hand, and become fragments of the scope's adapter; the
combinators join the fragments of their parts. Values are numbered in the order of the leaves: each
step is told how many values are bound before it and answers with those it binds itself.

The first leaf that fails is the failure of the whole. No part is ever left out.
-/

namespace Criteria.Filter

/-- The pieces of a custom filter from one of them on, and the values they bind. There are `before`
values bound before the filter, and `bound` before these pieces. -/
def bindFrom (before bound : Nat) : List CustomPiece → List Sql.Insert × List Json
  | [] => ([], [])
  | .text sql :: rest =>
    let (inserts, values) := bindFrom before bound rest
    (.text sql :: inserts, values)
  | .value value :: rest =>
    let (inserts, values) := bindFrom before (bound + 1) rest
    (.param (bound + 1) :: inserts, value :: values)
  | .bind value :: rest =>
    let (inserts, values) := bindFrom before (bound + 1) rest
    (inserts, value :: values)
  | .again index :: rest =>
    let (inserts, values) := bindFrom before bound rest
    if before + index < bound then (.param (before + index + 1) :: inserts, values)
    else (inserts, values)

/-- The pieces of a custom filter with its values numbered behind `bound` others, and the values. -/
def bindPieces (bound : Nat) (pieces : List CustomPiece) : List Sql.Insert × List Json :=
  bindFrom bound bound pieces

/-- Compiles a built-in operator on a field. -/
def compileField (scope : Scope) (bound : Nat) (name : String) (op : Operator) (operand : Json) :
    Except CompileError (Fragment × List Json) :=
  match scope.field? name with
  | none => .error (.unknownField scope.entity name)
  | some declared =>
    if scope.registry.isLegal declared.kind scope.adapter op then
      Fragment.leaf scope.adapter bound declared op operand
    else .error (.unsupportedOperator name op.key declared.kind scope.adapter)

/-- The fragment of what a custom filter answered with. It must be in the adapter's language. -/
def ofCustom (adapter : Adapter) (bound : Nat) :
    CustomFragment → Except CompileError (Fragment × List Json)
  | .sql pieces =>
    match adapter with
    | .sql _ =>
      let (inserts, values) := bindPieces bound pieces
      .ok (.sql (.custom inserts), values)
    | .search => .error (.wrongFragment adapter "sql")
  | .document document =>
    match adapter with
    | .search => .ok (.document (.verbatim document), [])
    | .sql _ => .error (.wrongFragment adapter "document")

/-- Compiles a custom operator. The column of a computed field is its name. -/
def compileCustom (scope : Scope) (bound : Nat) (name key : String) (operand : Json) :
    Except CompileError (Fragment × List Json) :=
  match scope.custom.get? scope.entity name key with
  | none => .error (.unresolvedCustomFilter scope.entity name key)
  | some answer => do
    let reference := ((scope.field? name).map Field.reference).getD name
    let call : CustomCall := ⟨scope.adapter, scope.adapter.quote reference, operand⟩
    ofCustom scope.adapter bound (← answer call)

mutual

/-- The fragment of a filter when `bound` values are bound before it, and the values it binds. -/
def lower (scope : Scope) (bound : Nat) : Filter → Except CompileError (Fragment × List Json)
  | .all parts => do
    let (fragments, values) ← lowerAll scope bound parts
    return (← Fragment.all scope.adapter fragments, values)
  | .any parts => do
    let (fragments, values) ← lowerAll scope bound parts
    return (← Fragment.any scope.adapter fragments, values)
  | .not part => do
    let (fragment, values) ← lower scope bound part
    return (← Fragment.negate scope.adapter fragment, values)
  | .field name op operand => compileField scope bound name op operand
  | .custom name key operand => compileCustom scope bound name key operand

/-- The fragments of filters in turn, and the values they bind. -/
def lowerAll (scope : Scope) (bound : Nat) :
    List Filter → Except CompileError (List Fragment × List Json)
  | [] => .ok ([], [])
  | part :: parts => do
    let (fragment, values) ← lower scope bound part
    let (fragments, others) ← lowerAll scope (bound + values.length) parts
    return (fragment :: fragments, values ++ others)

end

/-- Compiles a filter. -/
def compile (scope : Scope) (filter : Filter) : Except CompileError Predicate := do
  let (fragment, params) ← filter.lower scope 0
  return ⟨scope.adapter, fragment, params⟩

/-- The filter that constrains nothing is compiled to what matches everything. -/
theorem compile_identity (scope : Scope) :
    identity.compile scope = .ok ⟨scope.adapter, .always scope.adapter, []⟩ := by
  simp only [compile, identity, lower, lowerAll, bind, Except.bind, Fragment.all_nil]
  rfl

/-- The filter without alternatives is compiled to what matches nothing. -/
theorem compile_any_nil (scope : Scope) :
    (any []).compile scope = .ok ⟨scope.adapter, .never scope.adapter, []⟩ := by
  simp only [compile, lower, lowerAll, bind, Except.bind, Fragment.any_nil]
  rfl

end Criteria.Filter
