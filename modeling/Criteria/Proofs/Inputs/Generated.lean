import Criteria.Inputs
import Criteria.Proofs.Catalog
import Criteria.Proofs.Schema.Built

/-!
# What is generated

Inputs are kept in catalogs under names that are put together from other names: `UserFilter` from an
entity, `IntOperators` from a kind. A later entry of a name would replace an earlier one, so what
can be looked up under a name is settled only if different things have different names. In a schema
that was built they have: entities stand under names of their own, and an enum is never called like
a built-in kind.

* `operatorInputName_inj` — the names of operator inputs differ;
* `get?_filterInputs`, `get?_operatorInputs` — what stands under the names;
* `ListsEach`, `generate_listsEach` — there is one input for each entity, and no other;
* `mem_fields_iff` — the fields of a filter input.
-/

namespace Criteria

namespace Inputs

variable {engine : Engine} {types : List String} {entity : Entity} {kind other : Kind}

/-! ### Names -/

/-- A kind that is not an enum under the name of a built-in kind. -/
def IsFree (kind : Kind) : Prop := ∀ name, kind = .enum name → Kind.isReserved name = false

theorem mem_builtin_or_enum (kind : Kind) : kind ∈ Kind.builtin ∨ ∃ name, kind = .enum name := by
  cases kind with
  | enum name => exact .inr ⟨name, rfl⟩
  | _ => exact .inl (by decide)

/-- Different kinds have different input names, if no enum has the name of a built-in kind. -/
theorem inputName_inj (hkind : IsFree kind) (hother : IsFree other)
    (h : kind.inputName = other.inputName) : kind = other := by
  have hdistinct : ∀ kind ∈ Kind.builtin, ∀ other ∈ Kind.builtin,
      kind.inputName = other.inputName → kind = other := by decide
  rcases mem_builtin_or_enum kind with hbuiltin | ⟨name, rfl⟩
  · rcases mem_builtin_or_enum other with hbuiltin' | ⟨name', rfl⟩
    · exact hdistinct kind hbuiltin other hbuiltin' h
    · -- the enum would have a reserved name
      have hreserved := Kind.isReserved_inputName hbuiltin
      rw [h, Kind.inputName_enum, hother name' rfl] at hreserved
      cases hreserved
  · rcases mem_builtin_or_enum other with hbuiltin' | ⟨name', rfl⟩
    · have hreserved := Kind.isReserved_inputName hbuiltin'
      rw [← h, Kind.inputName_enum, hkind name rfl] at hreserved
      cases hreserved
    · rw [Kind.inputName_enum, Kind.inputName_enum] at h
      rw [h]

/-- A common ending does not make different names equal. -/
theorem append_right_inj {name other ending : String} (h : name ++ ending = other ++ ending) :
    name = other := by
  rw [← String.toList_inj, String.toList_append, String.toList_append] at h
  exact String.toList_inj.1 (List.append_cancel_right h)

theorem operatorInputName_inj (hkind : IsFree kind) (hother : IsFree other)
    (h : operatorInputName kind = operatorInputName other) : kind = other :=
  inputName_inj hkind hother (append_right_inj h)

/-! ### Entities and kinds -/

theorem mem_entitiesAmong {schema : Schema} :
    entity ∈ entitiesAmong schema types ↔
      (∃ name, schema.entity? name = some entity) ∧ entity.name ∈ types := by
  unfold entitiesAmong Schema.entity?
  rw [List.mem_filter, Catalog.mem_values_iff, List.contains_iff_mem]

/-- A field is treated as one of its own kind or as a generic one. -/
theorem effectiveKind_eq (registry : Registry) (adapter : Adapter) (kind : Kind) :
    registry.effectiveKind kind adapter = .generic ∨
      registry.effectiveKind kind adapter = kind := by
  unfold Registry.effectiveKind
  split
  · exact .inl rfl
  · exact .inr rfl

/-- A proper field is treated as a kind that is free. -/
theorem isFree_effectiveKind {registry : Registry} {adapter : Adapter} {field : Field}
    (hproper : field.IsProper) : IsFree (registry.effectiveKind field.kind adapter) := by
  intro name hname
  rcases effectiveKind_eq registry adapter field.kind with hgeneric | hown
  · rw [hgeneric] at hname
    cases hname
  · rw [hown] at hname
    exact hproper.kind name hname

/-- The kinds in use in a proper entity are free. -/
theorem isFree_of_mem_kindsOf {registry : Registry} {adapter : Adapter}
    (hproper : entity.IsProper) (hkind : kind ∈ kindsOf registry adapter entity) : IsFree kind := by
  obtain ⟨field, hfield, rfl⟩ := List.mem_map.1 hkind
  exact isFree_effectiveKind (hproper.fields field (List.mem_filter.1 hfield).1)

/-! ### What stands under the names -/

section

variable (hproper : engine.schema.IsProper)

include hproper

/-- The filter input of an entity stands under the name of the entity. -/
theorem get?_filterInputs (hentity : engine.schema.entity? entity.name = some entity)
    (htype : entity.name ∈ types) :
    (generate engine types).filterInputs.get? (entity.name ++ "Filter") =
      some (filterInput engine.registry engine.adapter engine.custom entity) := by
  refine Catalog.get?_ofList ?_ fun input hinput => ?_
  · exact List.mem_map.2 ⟨entity, mem_entitiesAmong.2 ⟨⟨_, hentity⟩, htype⟩, rfl⟩
  · -- another entity of the same input name would stand under the same name
    obtain ⟨found, hfound, heq⟩ := List.mem_map.1 hinput
    obtain ⟨hname, rfl⟩ := Prod.mk.inj heq
    obtain ⟨⟨name, hlookup⟩, -⟩ := mem_entitiesAmong.1 hfound
    have hsame : found.name = entity.name := append_right_inj hname
    rw [← (hproper name found hlookup).1, hsame, hentity] at hlookup
    rw [Option.some.inj hlookup]

/-- The operator input of a kind in use stands under the name of the kind. -/
theorem get?_operatorInputs (hentity : engine.schema.entity? entity.name = some entity)
    (htype : entity.name ∈ types)
    (hkind : kind ∈ kindsOf engine.registry engine.adapter entity) :
    (generate engine types).operatorInputs.get? (operatorInputName kind) =
      some (operatorInput engine.registry engine.adapter kind) := by
  have hamong := mem_entitiesAmong.2 ⟨⟨_, hentity⟩, htype⟩
  have hfree := isFree_of_mem_kindsOf (hproper _ _ hentity).2 hkind
  refine Catalog.get?_ofList ?_ fun input hinput => ?_
  · exact List.mem_map.2 ⟨kind, List.mem_flatMap.2 ⟨entity, hamong, hkind⟩, rfl⟩
  · -- whatever entity brings in the same name, it brings in the same kind
    obtain ⟨found, hfound, heq⟩ := List.mem_map.1 hinput
    obtain ⟨hname, rfl⟩ := Prod.mk.inj heq
    obtain ⟨owner, howner, hused⟩ := List.mem_flatMap.1 hfound
    obtain ⟨⟨name, hlookup⟩, -⟩ := mem_entitiesAmong.1 howner
    have hfree' := isFree_of_mem_kindsOf (hproper _ _ hlookup).2 hused
    rw [operatorInputName_inj hfree' hfree hname]

end

/-! ### The inputs of all entities -/

/-- A catalog has one input for each name of which something holds, and no other input. Each stands
under the name with an ending, which is its own name. -/
structure ListsEach {α : Type} (catalog : Catalog α) (nameOf entityOf : α → String)
    (ending : String) (holds : String → Prop) : Prop where
  named : ∀ key input, catalog.get? key = some input →
    key = entityOf input ++ ending ∧ nameOf input = key
  once : (catalog.values.map entityOf).Nodup
  mem_iff : ∀ type, type ∈ catalog.values.map entityOf ↔ holds type

/-- The catalog of one input for each entity of a list. -/
theorem listsEach_ofList {α : Type} (nameOf entityOf : α → String) {ending : String}
    (make : Entity → α) (hname : ∀ entity, nameOf (make entity) = entity.name ++ ending)
    (hentity : ∀ entity, entityOf (make entity) = entity.name) (entities : List Entity) :
    ListsEach (.ofList (entities.map fun entity => (nameOf (make entity), make entity)))
      nameOf entityOf ending fun type => type ∈ entities.map Entity.name := by
  have hnamed : ∀ key input,
      (Catalog.ofList (entities.map fun entity => (nameOf (make entity), make entity))).get? key =
        some input → ∃ entity ∈ entities, key = entity.name ++ ending ∧ input = make entity := by
    intro key input h
    obtain ⟨entity, hmem, heq⟩ := List.mem_map.1 (Catalog.mem_of_get?_ofList h)
    obtain ⟨rfl, rfl⟩ := Prod.mk.inj heq
    exact ⟨entity, hmem, hname entity, rfl⟩
  constructor
  · intro key input h
    obtain ⟨entity, -, rfl, rfl⟩ := hnamed key input h
    rw [hname, hentity]
    exact ⟨rfl, rfl⟩
  · -- two inputs of one entity would stand under one key
    rw [Catalog.values, List.map_map, List.Nodup, List.pairwise_map]
    refine (Catalog.increasing _).imp_of_mem fun {first second} hfirst hsecond hlt hsame => ?_
    obtain ⟨entity, -, hkey, hinput⟩ := hnamed _ _ (Catalog.get?_eq_some_iff.2 hfirst)
    obtain ⟨entity', -, hkey', hinput'⟩ := hnamed _ _ (Catalog.get?_eq_some_iff.2 hsecond)
    change entityOf first.2 = entityOf second.2 at hsame
    rw [hinput, hinput', hentity, hentity] at hsame
    rw [hkey, hkey', hsame] at hlt
    exact String.lt_irrefl _ hlt
  · intro type
    rw [List.mem_map, List.mem_map]
    constructor
    · rintro ⟨input, hinput, rfl⟩
      obtain ⟨key, hkey⟩ := Catalog.mem_values_iff.1 hinput
      obtain ⟨entity, hmem, -, rfl⟩ := hnamed key input hkey
      exact ⟨entity, hmem, (hentity entity).symm⟩
    · rintro ⟨entity, hmem, rfl⟩
      -- something stands under the name, and only this entity can have put it there
      have hkey : nameOf (make entity) ∈
          (entities.map fun entity => (nameOf (make entity), make entity)).map Prod.fst :=
        List.mem_map.2 ⟨_, List.mem_map_of_mem hmem, rfl⟩
      obtain ⟨input, hinput⟩ := Catalog.contains_iff.1 (Catalog.contains_ofList.2 hkey)
      obtain ⟨found, -, hfound, rfl⟩ := hnamed _ _ hinput
      rw [hname] at hfound
      refine ⟨make found, Catalog.mem_values_iff.2 ⟨_, hinput⟩, ?_⟩
      rw [hentity, append_right_inj hfound]

theorem ListsEach.congr {α : Type} {catalog : Catalog α} {nameOf entityOf : α → String}
    {ending : String} {holds holds' : String → Prop}
    (h : ListsEach catalog nameOf entityOf ending holds) (hiff : ∀ type, holds type ↔ holds' type) :
    ListsEach catalog nameOf entityOf ending holds' where
  named := h.named
  once := h.once
  mem_iff type := (h.mem_iff type).trans (hiff type)

/-- The names of the entities among a list of types. -/
theorem mem_names_entitiesAmong {name : String} {schema : Schema} {types : List String}
    (hproper : schema.IsProper) :
    name ∈ (entitiesAmong schema types).map Entity.name ↔
      schema.contains name = true ∧ name ∈ types := by
  rw [List.mem_map, Schema.contains, Catalog.contains_iff]
  constructor
  · rintro ⟨entity, hamong, rfl⟩
    obtain ⟨⟨stands, hentity⟩, htype⟩ := mem_entitiesAmong.1 hamong
    obtain ⟨rfl, -⟩ := hproper stands entity hentity
    exact ⟨⟨entity, hentity⟩, htype⟩
  · rintro ⟨⟨entity, hentity⟩, htype⟩
    obtain ⟨rfl, -⟩ := hproper name entity hentity
    exact ⟨entity, mem_entitiesAmong.2 ⟨⟨_, hentity⟩, htype⟩, rfl⟩

/-- **There is a filter input and an order input for each entity among the types**, and no other. -/
theorem generate_listsEach {engine : Engine} (hproper : engine.schema.IsProper)
    (types : List String) :
    ListsEach (generate engine types).filterInputs FilterInput.name FilterInput.entity "Filter"
        (fun type => engine.schema.contains type = true ∧ type ∈ types) ∧
      ListsEach (generate engine types).orderInputs OrderInput.name OrderInput.entity "Order"
        (fun type => engine.schema.contains type = true ∧ type ∈ types) := by
  have hamong := fun type => @mem_names_entitiesAmong type engine.schema types hproper
  have hfilters := listsEach_ofList FilterInput.name FilterInput.entity
    (filterInput engine.registry engine.adapter engine.custom) (fun _ => rfl) (fun _ => rfl)
    (entitiesAmong engine.schema types)
  have horders := listsEach_ofList OrderInput.name OrderInput.entity orderInput (fun _ => rfl)
    (fun _ => rfl) (entitiesAmong engine.schema types)
  exact ⟨hfilters.congr hamong, horders.congr hamong⟩

/-! ### Fields -/

variable {registry : Registry} {adapter : Adapter} {custom : CustomFilters} {entry : FilterField}
  {field : Field}

/-- A field that can be filtered by has the operator input of the kind it is treated as. -/
theorem filterField?_of_filterable (hfilterable : field.filterable = true) :
    filterField? registry adapter custom entity field =
      some ⟨field.name, some (operatorInputName (registry.effectiveKind field.kind adapter)),
        custom.operatorKeys entity.name field.name⟩ :=
  if_pos hfilterable

/-- Another field is there for its custom operators. -/
theorem filterField?_of_custom (hfilterable : ¬ field.filterable = true)
    (hkeys : custom.operatorKeys entity.name field.name ≠ []) :
    filterField? registry adapter custom entity field =
      some ⟨field.name, none, custom.operatorKeys entity.name field.name⟩ := by
  have hnonempty : ¬ (custom.operatorKeys entity.name field.name).isEmpty = true := by
    simpa using hkeys
  exact (if_neg hfilterable).trans (if_neg hnonempty)

/-- There are no other declared fields. -/
theorem filterField?_eq_some (h : filterField? registry adapter custom entity field = some entry) :
    entry.name = field.name ∧ entry.customOperators = custom.operatorKeys entity.name field.name ∧
      (field.filterable = true ∧ entry.operators =
          some (operatorInputName (registry.effectiveKind field.kind adapter)) ∨
        entry.operators = none) := by
  by_cases hfilterable : field.filterable = true
  · rw [filterField?_of_filterable hfilterable] at h
    obtain rfl := Option.some.inj h
    exact ⟨rfl, rfl, .inl ⟨hfilterable, rfl⟩⟩
  · by_cases hkeys : custom.operatorKeys entity.name field.name = []
    · -- without custom operators it is left out
      unfold filterField? at h
      rw [if_neg hfilterable, hkeys] at h
      cases h
    · rw [filterField?_of_custom hfilterable hkeys] at h
      obtain rfl := Option.some.inj h
      exact ⟨rfl, rfl, .inr rfl⟩

/-- The fields of a filter input are the declared fields that can be filtered by and the computed
ones. -/
theorem mem_fields_iff :
    entry ∈ (filterInput registry adapter custom entity).fields ↔
      (∃ field ∈ entity.fields, filterField? registry adapter custom entity field = some entry) ∨
        ∃ name ∈ custom.fieldNames entity.name, entity.field? name = none ∧
          entry = ⟨name, none, custom.operatorKeys entity.name name⟩ := by
  unfold filterInput computedFields
  rw [List.mem_append, List.mem_filterMap, List.mem_map]
  constructor
  · rintro (hdeclared | ⟨name, hname, rfl⟩)
    · exact .inl hdeclared
    · rw [List.mem_filter, Option.isNone_iff_eq_none] at hname
      exact .inr ⟨name, hname.1, hname.2, rfl⟩
  · rintro (hdeclared | ⟨name, hname, hnone, rfl⟩)
    · exact .inl hdeclared
    · refine .inr ⟨name, ?_, rfl⟩
      rw [List.mem_filter, Option.isNone_iff_eq_none]
      exact ⟨hname, hnone⟩

end Inputs

end Criteria
