import Criteria.Proofs.Engine
import Criteria.Proofs.Filter.Failure
import Criteria.Proofs.Registry.Assembly
import Criteria.Proofs.Search.Leaf
import Criteria.Proofs.Sql.Support

/-!
# What is read compiles

Four tables over operators are written apart from each other: which operators are legal, which
operands they take, what a dialect has a condition for, and what the search index has a query for.
They agree, and so no check of the compiler fails for a filter that was read: the field is declared,
the operator legal and supported, the operand of the right form, the custom filter registered. What
is left is the answer of a custom filter, which is the application's.

* `CustomFailure` — the failures that custom filters are answerable for;
* `customFailure_of_checked` — a leaf that was read has no other failure;
* `compile_of_read`, `compileFilter_of_readFilter` — neither has a filter that was read.
-/

namespace Criteria

namespace Filter

variable {scope : Scope}

/-- How a custom leaf fails: its filter reports a failure of its own, or answers in a language that
is not the adapter's. -/
inductive CustomFailure (scope : Scope) : Filter → CompileError → Prop
  | reported {name key : String} {operand : Json} {answer : CustomFilter} {fault : CompileError}
      (registered : scope.custom.get? scope.entity name key = some answer)
      (answers : answer (customCall scope name operand) = .error fault) :
    CustomFailure scope (.custom name key operand) fault
  | text {name key : String} {operand : Json} {answer : CustomFilter} {pieces : List CustomPiece}
      (search : scope.adapter = .search)
      (registered : scope.custom.get? scope.entity name key = some answer)
      (answers : answer (customCall scope name operand) = .ok (.sql pieces)) :
    CustomFailure scope (.custom name key operand) (.wrongFragment .search "sql")
  | document {dialect : Dialect} {name key : String} {operand : Json} {answer : CustomFilter}
      {document : Json} (sql : scope.adapter = .sql dialect)
      (registered : scope.custom.get? scope.entity name key = some answer)
      (answers : answer (customCall scope name operand) = .ok (.document document)) :
    CustomFailure scope (.custom name key operand) (.wrongFragment (.sql dialect) "document")

/-! ### Leaves -/

/-- A checked operand on a field of an operator that is legal there compiles under every adapter. -/
theorem failure?_leaf_of_check (hassembled : scope.registry.Assembled)
    (hnarrow : scope.registry.OverridesNarrow) {declared : Field} {op : Operator} {operand : Json}
    (hlegal : scope.registry.isLegal declared.kind scope.adapter op = true)
    (hcheck : Operand.check scope.registry scope.limits declared op operand = .ok ())
    (bound : Nat) : failure? (Fragment.leaf scope.adapter bound declared op operand) = none := by
  cases hadapter : scope.adapter with
  | search =>
    obtain ⟨query, hquery⟩ := Search.exists_leaf hcheck
    rw [Fragment.leaf, hquery]
    rfl
  | sql dialect =>
    rw [hadapter] at hlegal
    -- the operator is legal for the kind itself, or the kind is treated as the generic one
    have hsupports : Sql.supports dialect declared.kind op = true := by
      rcases hassembled.mem_baseOperators_of_isLegal hnarrow hlegal with hop | hop
      · exact Sql.supports_of_mem_baseOperators hop
      · exact Sql.supports_of_mem_generic hop
    obtain ⟨condition, values, hleaf⟩ := Sql.exists_leaf hsupports hcheck bound
    rw [Fragment.leaf, hleaf]
    rfl

/-- **A checked leaf fails for its custom filter or not at all.** -/
theorem customFailure_of_checked (hassembled : scope.registry.Assembled)
    (hnarrow : scope.registry.OverridesNarrow) {leaf : Filter} (hchecked : Checked scope leaf)
    {fault : CompileError} (hfault : failure? (leaf.compile scope) = some fault) :
    CustomFailure scope leaf fault := by
  rw [compile, failure?_bind fun _ _ => rfl] at hfault
  cases hchecked with
  | @field name op operand declared _ hdeclared _ _ hlegal hcheck =>
    rw [lower, compileField, hdeclared] at hfault
    dsimp only at hfault
    rw [if_pos hlegal, failure?_leaf_of_check hassembled hnarrow hlegal hcheck] at hfault
    cases hfault
  | @custom name key operand _ hregistered =>
    obtain ⟨answer, hanswer⟩ := Option.isSome_iff_exists.1 hregistered
    -- the tree keeps the canonical key, and look-up goes by canonical keys
    have hget : scope.custom.get? scope.entity name (CustomFilters.canonicalKey key) =
        some answer := by
      unfold CustomFilters.get? at hanswer ⊢
      rw [CustomFilters.canonicalKey_canonicalKey]
      exact hanswer
    rw [lower, compileCustom, hget] at hfault
    change failure? (answer (customCall scope name operand) >>= ofCustom scope.adapter 0) =
      some fault at hfault
    cases hanswers : answer (customCall scope name operand) with
    | error reported =>
      rw [hanswers] at hfault
      obtain rfl := Option.some.inj hfault
      exact .reported hget hanswers
    | ok custom =>
      rw [hanswers] at hfault
      change failure? (ofCustom scope.adapter 0 custom) = _ at hfault
      -- an answer is refused only for its language
      cases hadapter : scope.adapter with
      | sql dialect =>
        rw [hadapter] at hfault
        cases custom with
        | sql pieces => cases hfault
        | document document =>
          obtain rfl := Option.some.inj hfault
          exact .document hadapter hget hanswers
      | search =>
        rw [hadapter] at hfault
        cases custom with
        | sql pieces =>
          obtain rfl := Option.some.inj hfault
          exact .text hadapter hget hanswers
        | document document => cases hfault

/-! ### Documents -/

/-- A filter that was read compiles, unless a custom filter among its leaves fails. -/
theorem compile_of_read (hassembled : scope.registry.Assembled)
    (hnarrow : scope.registry.OverridesNarrow) {document : Json} {filter : Filter}
    (hread : read scope document = .ok filter) :
    (∃ predicate, filter.compile scope = .ok predicate) ∨
      ∃ leaf ∈ filter.leaves, ∃ fault, filter.compile scope = .error fault ∧
        CustomFailure scope leaf fault := by
  cases hcompile : filter.compile scope with
  | ok predicate => exact .inl ⟨predicate, rfl⟩
  | error fault =>
    -- the failure is the one of a leaf, and the reader has checked this leaf
    have hfailure := failure?_eq_some.2 hcompile
    rw [failure?_compile] at hfailure
    obtain ⟨leaf, hleaf, hfault⟩ := List.exists_of_findSome?_eq_some hfailure
    have hchecked := checked_of_read hread leaf hleaf
    have hcustom := customFailure_of_checked hassembled hnarrow hchecked hfault
    exact .inr ⟨leaf, hleaf, fault, rfl, hcustom⟩

end Filter

/-! ### Engines -/

namespace Engine

open Criteria.Filter (CustomFailure)

/-- **What an engine reads, it compiles.** If overrides of the registry only narrow, and the one of
a configuration has none, then a filter that was read compiles, unless a custom filter among its
leaves reports a failure or answers in another language. -/
theorem compileFilter_of_readFilter :
    (∀ (config : Config) (engine : Engine), Engine.ofConfig config = .ok engine →
      engine.registry.Assembled ∧ engine.registry.OverridesNarrow) ∧
    ∀ (engine : Engine) (entity : String) (document : Json) (bound : BoundFilter),
      engine.registry.Assembled → engine.registry.OverridesNarrow →
        engine.readFilter entity document = .ok bound →
          (∃ predicate, engine.compileFilter bound = .ok predicate) ∨
            ∃ leaf ∈ bound.root.leaves, ∃ fault, engine.compileFilter bound = .error fault ∧
              CustomFailure (engine.scope entity) leaf fault := by
  constructor
  · intro config engine hengine
    obtain ⟨hassembled, hoverrides, -⟩ := registry_ofConfig hengine
    exact ⟨hassembled, Registry.overridesNarrow_of_nil hoverrides⟩
  · intro engine entity document bound hassembled hnarrow hread
    obtain ⟨-, root, hroot, rfl⟩ := readFilter_eq_ok.1 hread
    -- the filter is bound to the adapter of the engine, so it is not refused for another one
    have hcompile : engine.compileFilter (engine.bind entity root) =
        root.compile (engine.scope entity) := if_pos rfl
    rw [hcompile]
    exact Filter.compile_of_read hassembled hnarrow hroot

/-- An engine whose registry restricts an enum and narrows the set of another kind. One document has
only built-in operators, some of them on kinds that are treated as generic ones; the other one has a
custom filter that answers with a document where text is needed. -/
theorem compileFilter_of_readFilter_mixed :
    let entity : Entity := ⟨"Shop", [⟨"name", "s.name", .string, true, true⟩,
      .declare "status" (.enum "Status"), .declare "tags" .array, .declare "place" .geoPoint]⟩
    let registry : Registry :=
      Registry.overrideKind
        ⟨.ofList [("Status", ⟨["open", "shut"], some [.eq, .isIn]⟩)], []⟩
        (.sql .sqlite) .string [.isNull, .like]
    let custom : CustomFilters :=
      CustomFilters.empty.register "Shop" "name" "sounds_like" fun call =>
        .ok (.document call.operand)
    let engine : Engine :=
      ⟨.sql .sqlite, ⟨.ofList [("Shop", entity)]⟩, registry, custom, {}⟩
    let plain : Json := .object
      [("status", .object [("_in", .array [.string "open"])]),
       ("_not", .object [("name", .object [("_like", .string "A%")]),
         ("tags", .object [("eq", .array [])]), ("place", .object [("_is_null", .bool true)])])]
    let customized : Json := .object
      [("name", .object [("_like", .string "A%"), ("_sounds_like", .string "ay")])]
    let root : Filter :=
      .all [.field "status" .isIn (.array [.string "open"]),
        .not (.all [.field "name" .like (.string "A%"), .field "tags" .eq (.array []),
          .field "place" .isNull (.bool true)])]
    let customRoot : Filter :=
      .all [.field "name" .like (.string "A%"), .custom "name" "_sounds_like" (.string "ay")]
    engine.registry.Assembled ∧ engine.registry.OverridesNarrow ∧
      engine.readFilter "Shop" plain = .ok ⟨.sql .sqlite, "Shop", root⟩ ∧
      (∃ predicate, engine.compileFilter ⟨.sql .sqlite, "Shop", root⟩ = .ok predicate) ∧
      engine.readFilter "Shop" customized = .ok ⟨.sql .sqlite, "Shop", customRoot⟩ ∧
      ∃ leaf ∈ customRoot.leaves,
        CustomFailure (engine.scope "Shop") leaf (.wrongFragment (.sql .sqlite) "document") := by
  intro entity registry custom engine plain customized root customRoot
  have hassembled : engine.registry.Assembled := by
    have hregister : Registry.empty.registerEnum ⟨"Status", ["open", "shut"], some [.eq, .isIn]⟩ =
        .ok ⟨.ofList [("Status", ⟨["open", "shut"], some [.eq, .isIn]⟩)], []⟩ := rfl
    exact .overrideKind (.registerEnum .empty hregister)
  have hnarrow : engine.registry.OverridesNarrow :=
    (Registry.overridesNarrow_of_nil rfl).overrideKind (by decide)
  have hplain : engine.readFilter "Shop" plain = .ok ⟨.sql .sqlite, "Shop", root⟩ := rfl
  have hcustomized : engine.readFilter "Shop" customized = .ok ⟨.sql .sqlite, "Shop", customRoot⟩ :=
    rfl
  refine ⟨hassembled, hnarrow, hplain, ?_, hcustomized, ?_⟩
  · rcases compileFilter_of_readFilter.2 engine "Shop" plain _ hassembled hnarrow hplain with
      hcompiles | ⟨leaf, hleaf, _, _, hcustom⟩
    · exact hcompiles
    · -- none of the leaves is a custom one
      simp only [root, Filter.leaves_all, Filter.leaves_not, Filter.leaves_field,
        List.flatMap_cons, List.flatMap_nil, List.append_nil, List.cons_append, List.nil_append,
        List.mem_cons, List.not_mem_nil, or_false] at hleaf
      rcases hleaf with rfl | rfl | rfl | rfl <;> cases hcustom
  · rcases compileFilter_of_readFilter.2 engine "Shop" customized _ hassembled hnarrow hcustomized
      with ⟨predicate, hcompiles⟩ | ⟨leaf, hleaf, fault, hfails, hcustom⟩
    · cases hcompiles
    · cases hfails
      exact ⟨leaf, hleaf, hcustom⟩

end Engine

end Criteria
