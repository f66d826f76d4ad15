import Criteria.Proofs.Filter.Operand
import Criteria.Proofs.Inputs.Generated
import Criteria.Proofs.Registry.History

/-!
# What is advertised is what is legal

A field of a filter input names an operator input, and the operator input is made once for all
fields that name it. So it has to suit each of them: its operators are those that are legal on the
field, in the order of the vocabulary, and the shapes it lists are the shapes of the operands that
the field takes.

The names of operator inputs come from the kinds that fields are treated as. A field whose kind has
no operators under the adapter is treated as a generic one, and then the shapes are those of the
generic kind. They could differ from what the check of an operand asks for on the field's own kind,
but only for `contains`, which generic fields have by an override only.

* `Inputs.Refers` — a field of a filter input names an operator input;
* `refers_iff` — the fields that do, and the names;
* `OperatorInput.Advertises` — an operator input suits a field;
* `generate_advertises` — the inputs that are generated have what the fields name, and nothing else.
-/

namespace Criteria

/-- The operator input of a field: it is there for the kind the field is treated as, and lists what
is legal on the field in the order of the vocabulary. While the generic kind has its base set, each
shape is the one that the check of operands goes by, and what passes the check has its form. -/
structure OperatorInput.Advertises (engine : Engine) (field : Field) (input : OperatorInput) :
    Prop where
  kind : input.kind = engine.registry.effectiveKind field.kind engine.adapter
  operators : input.operators.map OperatorEntry.op =
    Operator.all.filter fun op => engine.registry.isLegal field.kind engine.adapter op
  shapes : engine.registry.overrides.lookup (engine.adapter, .generic) = none →
    ∀ entry ∈ input.operators, entry.shape = entry.op.shape field.kind ∧
      ∀ operand, Operand.check engine.registry engine.limits field entry.op operand = .ok () →
        Operand.HasForm entry.shape operand

namespace Inputs

/-- The filter input of an entity has a field of this name, which names the operator input. -/
def Refers (inputs : Inputs) (owner name operators : String) : Prop :=
  ∃ key input entry, inputs.filterInputs.get? key = some input ∧ input.entity = owner ∧
    entry ∈ input.fields ∧ entry.name = name ∧ entry.operators = some operators

variable {engine : Engine} {types : List String} {owner name operators : String}
  {registry : Registry} {adapter : Adapter} {kind : Kind} {op : Operator} {field : Field}

/-! ### Shapes -/

/-- Only `contains` takes different operands on different kinds. -/
theorem shape_eq_of_ne_contains (h : op ≠ .contains) (kind other : Kind) :
    op.shape kind = op.shape other := by
  cases op with
  | contains => exact absurd rfl h
  | _ => rfl

/-- An operator has the shape it has on the kind itself, if generic fields have their base set. -/
theorem shape_effectiveKind (hgeneric : registry.overrides.lookup (adapter, .generic) = none)
    (hop : op ∈ registry.legalOperators kind adapter) :
    op.shape (registry.effectiveKind kind adapter) = op.shape kind := by
  rcases effectiveKind_eq registry adapter kind with heffective | heffective
  · -- the operator is then one of the base set of the generic kind
    rw [Registry.legalOperators, heffective, Registry.operatorsFor, hgeneric] at hop
    have hbase : op ∈ [Operator.eq, .neq, .isNull] := hop
    have hcontains : op ≠ .contains := by
      rintro rfl
      revert hbase
      decide
    exact shape_eq_of_ne_contains hcontains _ _
  · rw [heffective]

/-- **The operator input of a field suits it.** -/
theorem advertises_operatorInput (hregistry : engine.registry.Assembled) :
    (operatorInput engine.registry engine.adapter
      (engine.registry.effectiveKind field.kind engine.adapter)).Advertises engine field where
  kind := rfl
  operators := by
    have hops : (operatorInput engine.registry engine.adapter
        (engine.registry.effectiveKind field.kind engine.adapter)).operators.map OperatorEntry.op =
          engine.registry.legalOperators field.kind engine.adapter := by
      rw [operatorInput, List.map_map]
      exact List.map_id _
    rw [hops]
    exact hregistry.legalOperators_eq_filter
  shapes := by
    intro hgeneric entry hentry
    obtain ⟨op, hop, rfl⟩ := List.mem_map.1 hentry
    have hshape := shape_effectiveKind hgeneric hop
    refine ⟨hshape, fun operand hcheck => ?_⟩
    rw [hshape]
    exact Operand.hasForm_of_check hcheck

/-! ### References -/

section

variable (hproper : engine.schema.IsProper)

include hproper

/-- **The fields that name an operator input** are the declared ones that can be filtered by, of the
entities among the types. They name the input of the kind they are treated as. -/
theorem refers_iff :
    (generate engine types).Refers owner name operators ↔
      owner ∈ types ∧ ∃ field, engine.schema.field? owner name = some field ∧
        field.filterable = true ∧
        operators = operatorInputName (engine.registry.effectiveKind field.kind engine.adapter) := by
  constructor
  · rintro ⟨key, input, entry, hinput, rfl, hentry, rfl, hoperators⟩
    obtain ⟨entity, hamong, heq⟩ := List.mem_map.1 (Catalog.mem_of_get?_ofList hinput)
    obtain ⟨-, rfl⟩ := Prod.mk.inj heq
    obtain ⟨⟨stands, hentity⟩, htype⟩ := mem_entitiesAmong.1 hamong
    obtain ⟨rfl, -⟩ := hproper stands entity hentity
    rcases mem_fields_iff.1 hentry with ⟨field, hfield, hsome⟩ | ⟨computed, -, -, rfl⟩
    · obtain ⟨hname, -, ⟨hfilterable, hnamed⟩ | hnone⟩ := filterField?_eq_some hsome
      · exact ⟨htype, field,
          hproper.field?_eq_some_iff.2 ⟨entity, hentity, rfl, hfield, hname.symm⟩, hfilterable,
          Option.some.inj (hoperators.symm.trans hnamed)⟩
      · rw [hnone] at hoperators
        cases hoperators
    · -- computed fields name none
      cases hoperators
  · -- the entry of the field in the filter input of its entity
    rintro ⟨htype, field, hdeclared, hfilterable, rfl⟩
    obtain ⟨entity, hentity, rfl, hmem, rfl⟩ := hproper.field?_eq_some_iff.1 hdeclared
    refine ⟨_, _, ⟨field.name, some _, engine.custom.operatorKeys entity.name field.name⟩,
      get?_filterInputs hproper hentity htype, rfl, ?_, rfl, rfl⟩
    exact mem_fields_iff.2 (.inl ⟨field, hmem, filterField?_of_filterable hfilterable⟩)

/-- What a field names is there. -/
theorem get?_operatorInputs_of_field (htype : owner ∈ types)
    (hdeclared : engine.schema.field? owner name = some field)
    (hfilterable : field.filterable = true) :
    (generate engine types).operatorInputs.get?
        (operatorInputName (engine.registry.effectiveKind field.kind engine.adapter)) =
      some (operatorInput engine.registry engine.adapter
        (engine.registry.effectiveKind field.kind engine.adapter)) := by
  obtain ⟨entity, hentity, rfl, hmem, -⟩ := hproper.field?_eq_some_iff.1 hdeclared
  refine get?_operatorInputs hproper hentity htype (List.mem_map.2 ⟨field, ?_, rfl⟩)
  exact List.mem_filter.2 ⟨hmem, hfilterable⟩

/-- What is there is named by a field. -/
theorem exists_refers {input : OperatorInput}
    (h : (generate engine types).operatorInputs.get? operators = some input) :
    ∃ owner name, (generate engine types).Refers owner name operators := by
  obtain ⟨kind, hkind, heq⟩ := List.mem_map.1 (Catalog.mem_of_get?_ofList h)
  obtain ⟨rfl, -⟩ := Prod.mk.inj heq
  -- the kind was collected from a field that can be filtered by
  obtain ⟨entity, hamong, hused⟩ := List.mem_flatMap.1 hkind
  obtain ⟨field, hfield, rfl⟩ := List.mem_map.1 hused
  obtain ⟨hmem, hfilterable⟩ := List.mem_filter.1 hfield
  obtain ⟨⟨stands, hentity⟩, htype⟩ := mem_entitiesAmong.1 hamong
  obtain ⟨rfl, -⟩ := hproper stands entity hentity
  refine ⟨entity.name, field.name, (refers_iff hproper).2 ⟨htype, field, ?_, hfilterable, rfl⟩⟩
  exact hproper.field?_eq_some_iff.2 ⟨entity, hentity, rfl, hmem, rfl⟩

/-- Fields that are treated as different kinds name different inputs. -/
theorem effectiveKind_eq_of_operatorInputName_eq {owner' name' : String} {field' : Field}
    (hdeclared : engine.schema.field? owner name = some field)
    (hdeclared' : engine.schema.field? owner' name' = some field')
    (h : operatorInputName (engine.registry.effectiveKind field.kind engine.adapter) =
      operatorInputName (engine.registry.effectiveKind field'.kind engine.adapter)) :
    engine.registry.effectiveKind field.kind engine.adapter =
      engine.registry.effectiveKind field'.kind engine.adapter := by
  -- an enum under the name of a built-in kind would clash, but no field of a proper schema has one
  have hfree : ∀ {owner name field}, engine.schema.field? owner name = some field →
      IsFree (engine.registry.effectiveKind field.kind engine.adapter) := by
    intro owner name field hdeclared
    obtain ⟨entity, hentity, -, hmem, -⟩ := hproper.field?_eq_some_iff.1 hdeclared
    exact isFree_effectiveKind ((hproper owner entity hentity).2.fields field hmem)
  exact operatorInputName_inj (hfree hdeclared) (hfree hdeclared') h

end

/-- **What is advertised is what is legal.** Whatever field names an operator input, the operator
input stands under this name and advertises exactly what is legal on the field; every operator input
is named by some field; and fields that name the same one are treated as one kind. -/
theorem generate_advertises {entities : List Entity}
    (hbuild : Schema.build entities = .ok engine.schema) (hregistry : engine.registry.Assembled)
    (types : List String) :
    (∀ owner name operators, (generate engine types).Refers owner name operators →
      ∃ field input, engine.schema.field? owner name = some field ∧ field.filterable = true ∧
        (generate engine types).operatorInputs.get? operators = some input ∧
        input.name = operators ∧ input.Advertises engine field) ∧
    (∀ operators input, (generate engine types).operatorInputs.get? operators = some input →
      ∃ owner name, (generate engine types).Refers owner name operators) ∧
    ∀ operators owner name field owner' name' field',
      (generate engine types).Refers owner name operators →
      (generate engine types).Refers owner' name' operators →
      engine.schema.field? owner name = some field →
      engine.schema.field? owner' name' = some field' →
        engine.registry.effectiveKind field.kind engine.adapter =
          engine.registry.effectiveKind field'.kind engine.adapter := by
  have hproper := Schema.isProper_of_build hbuild
  refine ⟨?_, fun _ _ h => exists_refers hproper h, ?_⟩
  · intro owner name operators hrefers
    obtain ⟨htype, field, hdeclared, hfilterable, rfl⟩ := (refers_iff hproper).1 hrefers
    exact ⟨field, _, hdeclared, hfilterable,
      get?_operatorInputs_of_field hproper htype hdeclared hfilterable, rfl,
      advertises_operatorInput hregistry⟩
  · intro operators owner name field owner' name' field' hrefers hrefers' hdeclared hdeclared'
    -- a name of a field stands for one field, so these are the fields that were given
    obtain ⟨-, found, hfound, -, hname⟩ := (refers_iff hproper).1 hrefers
    obtain ⟨-, found', hfound', -, hname'⟩ := (refers_iff hproper).1 hrefers'
    obtain rfl := Option.some.inj (hfound.symm.trans hdeclared)
    obtain rfl := Option.some.inj (hfound'.symm.trans hdeclared')
    exact effectiveKind_eq_of_operatorInputName_eq hproper hdeclared hdeclared'
      (hname.symm.trans hname')

/-- Arrays have no operators here, so the tags share the operator input of the generic field, which
advertises what is legal on them. The restricted enum has an operator input of its own. -/
theorem generate_advertises_fallback :
    let entity : Entity := ⟨"User", [.declare "tags" .array, .declare "meta" .generic,
      .declare "status" (.enum "Status")]⟩
    let registry : Registry := ⟨.ofList [("Status", ⟨["on", "off"], some [.eq, .isIn]⟩)], []⟩
    let engine : Engine :=
      ⟨.sql .mysql, ⟨.ofList [("User", entity)]⟩,
        registry.overrideKind (.sql .mysql) .string [.like], .empty, {}⟩
    let inputs : Inputs := generate engine ["Ghost", "User"]
    Schema.build [entity] = .ok engine.schema ∧ engine.registry.Assembled ∧
      inputs.Refers "User" "tags" "GenericOperators" ∧
      (∃ input, inputs.operatorInputs.get? "GenericOperators" = some input ∧
        input.Advertises engine (.declare "tags" .array)) ∧
      inputs.operatorInputs.get? "StatusOperators" =
        some ⟨"StatusOperators", .enum "Status", [⟨.eq, .scalar⟩, ⟨.isIn, .list⟩]⟩ ∧
      (∃ owner name, inputs.Refers owner name "StatusOperators") ∧
      engine.registry.effectiveKind .array (.sql .mysql) =
        engine.registry.effectiveKind .generic (.sql .mysql) := by
  have hbuild : Schema.build [⟨"User", [.declare "tags" .array, .declare "meta" .generic,
        .declare "status" (.enum "Status")]⟩] =
      .ok ⟨.ofList [("User", ⟨"User", [.declare "tags" .array, .declare "meta" .generic,
        .declare "status" (.enum "Status")]⟩)]⟩ := rfl
  intro entity registry engine inputs
  have hassembled : engine.registry.Assembled := by
    have hregister : Registry.empty.registerEnum ⟨"Status", ["on", "off"], some [.isIn, .eq]⟩ =
        .ok registry := rfl
    exact .overrideKind (.registerEnum .empty hregister)
  have htags : inputs.Refers "User" "tags" "GenericOperators" :=
    ⟨"UserFilter", _, ⟨"tags", some "GenericOperators", []⟩, rfl, rfl, List.mem_cons_self, rfl, rfl⟩
  have hmeta : inputs.Refers "User" "meta" "GenericOperators" :=
    ⟨"UserFilter", _, ⟨"meta", some "GenericOperators", []⟩, rfl, rfl,
      List.mem_cons_of_mem _ List.mem_cons_self, rfl, rfl⟩
  have hstatus : inputs.operatorInputs.get? "StatusOperators" =
      some ⟨"StatusOperators", .enum "Status", [⟨.eq, .scalar⟩, ⟨.isIn, .list⟩]⟩ := by
    have hentity : engine.schema.entity? entity.name = some entity := rfl
    have hkind : Kind.enum "Status" ∈ kindsOf engine.registry engine.adapter entity := by decide
    exact get?_operatorInputs (Schema.isProper_of_build hbuild) hentity (by decide) hkind
  -- neither conclusion is evaluated: both follow for the fields that were found
  obtain ⟨hadvertised, hreferred, hsame⟩ :=
    @generate_advertises engine [entity] hbuild hassembled ["Ghost", "User"]
  refine ⟨hbuild, hassembled, htags, ?_, hstatus, hreferred _ _ hstatus, ?_⟩
  · obtain ⟨field, input, hfield, -, hinput, -, hadvertises⟩ := hadvertised _ _ _ htags
    have hdeclared : engine.schema.field? "User" "tags" = some (.declare "tags" .array) := rfl
    obtain rfl := Option.some.inj (hfield.symm.trans hdeclared)
    exact ⟨input, hinput, hadvertises⟩
  · exact hsame _ _ _ (.declare "tags" .array) _ _ (.declare "meta" .generic) htags hmeta rfl rfl

end Inputs

end Criteria
