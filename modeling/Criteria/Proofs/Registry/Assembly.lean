import Criteria.Engine
import Criteria.Proofs.Outcome

/-!
# How registries come about

A registry is assembled before the first request, by declaring enums and by overriding the sets of
single kinds. Declaring an enum checks its restriction, so a restriction never lists an operator
that enums do not have. An override is taken as it stands; one that only lists operators of the base
set is a *narrowing* one.

* `Registry.Assembled` — the registries that declarations and overrides lead to;
* `Registry.OverridesNarrow` — the overrides in force only narrow;
* `Registry.Assembled.mem_baseOperators` — an operator of a set is then one of the base set;
* `Engine.registry_ofConfig` — a configuration leads to such a registry, without any override.
-/

namespace Criteria.Registry

variable {registry next : Registry} {kind : Kind} {adapter : Adapter} {op : Operator}

/-- The registries that declarations and overrides lead to. A declaration that is refused leads
nowhere. -/
inductive Assembled : Registry → Prop
  | empty : Assembled .empty
  | registerEnum {registry next : Registry} {declared : EnumDeclaration} :
    Assembled registry → registry.registerEnum declared = .ok next → Assembled next
  | overrideKind {registry : Registry} {adapter : Adapter} {kind : Kind}
      {operators : List Operator} :
    Assembled registry → Assembled (registry.overrideKind adapter kind operators)

/-- Every override that is in force lists operators of the base set only. -/
def OverridesNarrow (registry : Registry) : Prop :=
  ∀ adapter kind operators, registry.overrides.lookup (adapter, kind) = some operators →
    ∀ op ∈ operators, op ∈ baseOperators kind adapter

/-! ### Declared enums -/

/-- An enum is declared under a name that is not reserved, restricted to operators of enums, and
replaces what was declared under the name. -/
theorem registerEnum_eq_ok {declared : EnumDeclaration}
    (h : registry.registerEnum declared = .ok next) :
    Kind.isReserved declared.name = false ∧
      (∀ operators, declared.operators = some operators → ∀ op ∈ operators, op ∈ enumOperators) ∧
      next = { registry with
        enums := registry.enums.insert declared.name
          ⟨declared.values, declared.operators.map Operator.canonical⟩ } := by
  unfold registerEnum at h
  split at h
  · cases h
  · next hreserved =>
    split at h
    · cases h
    · next hallowed =>
      refine ⟨by simpa using hreserved, ?_, (Except.ok.inj h).symm⟩
      intro operators hoperators op hop
      -- no operator of the restriction was found to be missing among those of enums
      rw [hoperators, Option.getD_some, List.find?_eq_none] at hallowed
      simpa using hallowed op hop

theorem overrides_of_registerEnum {declared : EnumDeclaration}
    (h : registry.registerEnum declared = .ok next) : next.overrides = registry.overrides := by
  obtain ⟨-, -, rfl⟩ := registerEnum_eq_ok h
  rfl

/-- **An enum is restricted to operators that enums have.** -/
theorem Assembled.mem_enumOperators (h : Assembled registry) {operators : List Operator}
    (hrestriction : registry.enumRestriction? kind = some operators) :
    ∀ op ∈ operators, op ∈ enumOperators := by
  cases kind with
  | enum name =>
    induction h with
    | empty => cases hrestriction
    | @registerEnum registry next declared _ hregister ih =>
      obtain ⟨-, hallowed, rfl⟩ := registerEnum_eq_ok hregister
      rw [enumRestriction?, Catalog.get?_insert] at hrestriction
      by_cases hname : name = declared.name
      · -- the declaration itself decides, after its operators have been put in order
        rw [if_pos hname, Option.bind_some] at hrestriction
        obtain ⟨listed, hlisted, rfl⟩ := Option.map_eq_some_iff.1 hrestriction
        intro op hop
        exact hallowed listed hlisted op (Operator.mem_canonical.1 hop)
      · rw [if_neg hname] at hrestriction
        exact ih hrestriction
    | overrideKind _ ih => exact ih hrestriction
  | _ => cases hrestriction

/-! ### Sets -/

/-- **An operator of a set is one of the base set**, if overrides only narrow. -/
theorem Assembled.mem_baseOperators (h : Assembled registry) (hnarrow : registry.OverridesNarrow)
    (hop : op ∈ registry.operatorsFor kind adapter) : op ∈ baseOperators kind adapter := by
  unfold operatorsFor at hop
  split at hop
  · next operators hoverride => exact hnarrow adapter kind operators hoverride op hop
  · cases hrestriction : registry.enumRestriction? kind with
    | none =>
      rw [hrestriction, Option.getD_none] at hop
      exact hop
    | some operators =>
      rw [hrestriction, Option.getD_some] at hop
      have henum := h.mem_enumOperators hrestriction op hop
      -- only enums are restricted, and their base set is the one of all enums
      cases kind with
      | enum name => exact henum
      | _ => cases hrestriction

/-- A legal operator is one of the base set of the kind, or of the generic kind. -/
theorem Assembled.mem_baseOperators_of_isLegal (h : Assembled registry)
    (hnarrow : registry.OverridesNarrow) (hlegal : registry.isLegal kind adapter op = true) :
    op ∈ baseOperators kind adapter ∨ op ∈ baseOperators .generic adapter := by
  have hop := isLegal_iff.1 hlegal
  unfold legalOperators effectiveKind at hop
  split at hop
  · exact .inr (h.mem_baseOperators hnarrow hop)
  · exact .inl (h.mem_baseOperators hnarrow hop)

/-! ### Configurations -/

/-- The enums of a configuration are declared one after the other, and nothing is overridden. -/
theorem assembled_of_addEnums {enums : List Config.EnumSection} :
    ∀ {registry next : Registry}, registry.addEnums enums = .ok next → Assembled registry →
      Assembled next ∧ next.overrides = registry.overrides := by
  induction enums with
  | nil =>
    intro registry next h hassembled
    obtain rfl := Except.ok.inj h
    exact ⟨hassembled, rfl⟩
  | cons enum rest ih =>
    intro registry next h hassembled
    obtain ⟨declared, -, h⟩ := bind_eq_ok.1 h
    obtain ⟨between, hbetween, h⟩ := bind_eq_ok.1 h
    obtain ⟨hnext, hoverrides⟩ := ih h (.registerEnum hassembled hbetween)
    exact ⟨hnext, hoverrides.trans (overrides_of_registerEnum hbetween)⟩

/-- A configuration overrides nothing. -/
theorem assembled_of_ofConfig {schema : Config.SchemaSection}
    (h : Registry.ofConfig schema = .ok registry) :
    Assembled registry ∧ registry.overrides = [] :=
  assembled_of_addEnums h .empty

/-- Without overrides there is none that does not narrow. -/
theorem overridesNarrow_of_nil (h : registry.overrides = []) : registry.OverridesNarrow := by
  intro adapter kind operators hlookup
  rw [h] at hlookup
  cases hlookup

/-- An override that narrows keeps a registry narrow. -/
theorem OverridesNarrow.overrideKind {operators : List Operator} (h : registry.OverridesNarrow)
    (hoperators : ∀ op ∈ operators, op ∈ baseOperators kind adapter) :
    (registry.overrideKind adapter kind operators).OverridesNarrow := by
  intro other otherKind found hlookup op hop
  change (((adapter, kind), Operator.canonical operators) :: registry.overrides).lookup
    (other, otherKind) = some found at hlookup
  by_cases hpair : (other, otherKind) = (adapter, kind)
  · -- the new override is the one in force
    obtain ⟨rfl, rfl⟩ := Prod.mk.inj hpair
    rw [List.lookup_cons_self] at hlookup
    obtain rfl := Option.some.inj hlookup
    exact hoperators op (Operator.mem_canonical.1 hop)
  · have hbeq : ((other, otherKind) == (adapter, kind)) = false := beq_false_of_ne hpair
    rw [List.lookup_cons, hbeq] at hlookup
    exact h other otherKind found hlookup op hop

end Criteria.Registry

namespace Criteria.Engine

/-- The schema of an engine that a configuration describes is the one it declares. -/
theorem schema_ofConfig {config : Config} {engine : Engine}
    (h : Engine.ofConfig config = .ok engine) :
    Schema.ofConfig config.schema = .ok engine.schema := by
  obtain ⟨adapter, -, h⟩ := bind_eq_ok.1 h
  obtain ⟨schema, hschema, h⟩ := bind_eq_ok.1 h
  obtain ⟨registry, -, h⟩ := bind_eq_ok.1 h
  obtain rfl := Except.ok.inj h
  exact hschema

/-- The registry of an engine that a configuration describes is assembled without overrides. -/
theorem registry_ofConfig {config : Config} {engine : Engine}
    (h : Engine.ofConfig config = .ok engine) :
    engine.registry.Assembled ∧ engine.registry.overrides = [] ∧ engine.custom = .empty := by
  obtain ⟨adapter, -, h⟩ := bind_eq_ok.1 h
  obtain ⟨schema, -, h⟩ := bind_eq_ok.1 h
  obtain ⟨registry, hregistry, h⟩ := bind_eq_ok.1 h
  obtain rfl := Except.ok.inj h
  obtain ⟨hassembled, hoverrides⟩ := Registry.assembled_of_ofConfig hregistry
  exact ⟨hassembled, hoverrides, rfl⟩

end Criteria.Engine
