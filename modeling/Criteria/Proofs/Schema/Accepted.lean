import Criteria.Proofs.Schema.Built
import Criteria.Proofs.Schema.Names

/-!
# Which declarations make a schema

A schema is built in one pass over its entities and their fields, which stops at the first fault.
What is checked of a field depends on the fields before it, and what is checked of an entity on the
entities before it. All in all, a pass without a fault says something about the declarations that
has no order: they are well-formed (`AreWellFormed`). Names are identifiers, native references are
native names with dots between them, no enum is called like a built-in kind, and neither entities
nor the fields of one entity have a name in common.

Nothing is lost on the way. The entities are listed once each, whole and with their fields in the
order of declaration, and a field is found under its names exactly if it was declared under them.

* `exists_addAll_iff` — the pass over the entities, with any entities before them;
* `exists_build_iff` — a schema is built exactly from well-formed declarations;
* `build_keeps_declarations` — and it has what was declared.
-/

namespace Criteria.Schema

variable {entities : List Entity} {schema : Schema} {name : String}

/-! ### Well-formed declarations -/

/-- What declarations have to be like, whatever their order. -/
structure AreWellFormed (entities : List Entity) : Prop where
  /-- Entities have identifiers for names. -/
  entity_names : ∀ entity ∈ entities, entity.name.toList ∈ identifiers
  /-- No two entities have the same name. -/
  entities_distinct : (entities.map Entity.name).Nodup
  /-- Fields have identifiers for names. -/
  field_names : ∀ entity ∈ entities, ∀ field ∈ entity.fields, field.name.toList ∈ identifiers
  /-- No two fields of an entity have the same name. -/
  fields_distinct : ∀ entity ∈ entities, (entity.fields.map Field.name).Nodup
  /-- What native references have between their dots are native names, never empty ones. -/
  references : ∀ entity ∈ entities, ∀ field ∈ entity.fields,
    ∀ segment ∈ field.reference.toList.splitOn '.', segment ∈ nativeNames ∧ segment ≠ []
  /-- No enum has the name of a built-in operator input. -/
  enums : ∀ entity ∈ entities, ∀ field ∈ entity.fields, ∀ enum, field.kind = .enum enum →
    ∀ kind ∈ Kind.builtin, kind.inputName ≠ enum

/-- There is no empty native name. -/
theorem ne_nil_of_mem_nativeNames {segment : List Char} (h : segment ∈ nativeNames) :
    segment ≠ [] := by
  rintro rfl
  rw [← isNativeName_iff] at h
  cases h

theorem isReserved_eq_false_iff :
    Kind.isReserved name = false ↔ ∀ kind ∈ Kind.builtin, kind.inputName ≠ name := by
  rw [Kind.isReserved, ← Bool.not_eq_true, List.contains_iff_mem, List.mem_map]
  constructor
  · rintro hnot kind hkind rfl
    exact hnot ⟨kind, hkind, rfl⟩
  · rintro hne ⟨kind, hkind, hname⟩
    exact hne kind hkind hname

theorem segments_iff {field : Field} :
    field.segments.all isNativeName = true ↔
      ∀ segment ∈ field.reference.toList.splitOn '.', segment ∈ nativeNames ∧ segment ≠ [] := by
  rw [Field.segments, split_eq_splitOn, List.all_eq_true]
  constructor
  · intro h segment hsegment
    have hname : segment ∈ nativeNames := isNativeName_iff.1 (h segment hsegment)
    exact ⟨hname, ne_nil_of_mem_nativeNames hname⟩
  · intro h segment hsegment
    exact isNativeName_iff.2 (h segment hsegment).1

/-- Declarations are well-formed if each entity is proper and their names differ. -/
theorem areWellFormed_iff :
    AreWellFormed entities ↔
      (∀ entity ∈ entities, entity.IsProper) ∧ (entities.map Entity.name).Nodup := by
  constructor
  · intro h
    refine ⟨fun entity hentity => ?_, h.entities_distinct⟩
    refine ⟨isIdentifier_iff.2 (h.entity_names entity hentity), fun field hfield => ?_,
      h.fields_distinct entity hentity⟩
    refine ⟨isIdentifier_iff.2 (h.field_names entity hentity field hfield), ?_, ?_⟩
    · exact segments_iff.2 (h.references entity hentity field hfield)
    · intro enum henum
      exact isReserved_eq_false_iff.2 (h.enums entity hentity field hfield enum henum)
  · rintro ⟨hproper, hdistinct⟩
    refine ⟨?_, hdistinct, ?_, ?_, ?_, ?_⟩
    · intro entity hentity
      exact isIdentifier_iff.1 (hproper entity hentity).name
    · intro entity hentity field hfield
      exact isIdentifier_iff.1 ((hproper entity hentity).fields field hfield).name
    · intro entity hentity
      exact (hproper entity hentity).distinct
    · intro entity hentity field hfield
      exact segments_iff.1 ((hproper entity hentity).fields field hfield).reference
    · intro entity hentity field hfield enum henum
      have hkind := ((hproper entity hentity).fields field hfield).kind enum henum
      exact isReserved_eq_false_iff.1 hkind

/-! ### The pass over the entities -/

/-- Entities are added if they are proper and their names are neither taken nor repeated. -/
theorem exists_addAll_iff : ∀ {before : Catalog Entity},
    (∃ schema, addAll before entities = .ok schema) ↔
      (∀ entity ∈ entities, entity.IsProper) ∧ Catalog.Fresh Entity.name before entities := by
  induction entities with
  | nil =>
    intro before
    exact iff_of_true ⟨⟨before⟩, rfl⟩ ⟨nofun, Catalog.fresh_nil⟩
  | cons entity rest ih =>
    intro before
    simp only [addAll_cons_eq_ok, exists_and_left]
    rw [ih, List.forall_mem_cons, Catalog.fresh_cons_iff]
    constructor
    · rintro ⟨hentity, hfree, hproper, hfresh⟩
      exact ⟨⟨hentity, hproper⟩, hfree, hfresh⟩
    · rintro ⟨⟨hentity, hproper⟩, hfree, hfresh⟩
      exact ⟨hentity, hfree, hproper, hfresh⟩

/-- **A schema is built from well-formed declarations**, and from no others. -/
theorem exists_build_iff : (∃ schema, build entities = .ok schema) ↔ AreWellFormed entities := by
  rw [build, exists_addAll_iff, Catalog.fresh_empty_iff, areWellFormed_iff]

/-! ### What is found -/

/-- A field was declared under a name, for an entity of a name. -/
def Declares (entities : List Entity) (owner name : String) (field : Field) : Prop :=
  ∃ entity ∈ entities, entity.name = owner ∧ field ∈ entity.fields ∧ field.name = name

/-- **A field is found exactly if it was declared.** -/
theorem field?_of_build {owner : String} {field : Field} (h : build entities = .ok schema) :
    schema.field? owner name = some field ↔ Declares entities owner name field := by
  rw [(isProper_of_build h).field?_eq_some_iff]
  simp only [entity?_of_build h]
  constructor
  · rintro ⟨entity, ⟨hentity, howner⟩, -, hfield⟩
    exact ⟨entity, hentity, howner, hfield⟩
  · rintro ⟨entity, hentity, howner, hfield⟩
    exact ⟨entity, ⟨hentity, howner⟩, howner, hfield⟩

theorem field?_eq_none_of_build {owner : String} (h : build entities = .ok schema) :
    schema.field? owner name = none ↔ ∀ field, ¬ Declares entities owner name field := by
  rw [Option.eq_none_iff_forall_ne_some]
  exact forall_congr' fun field => not_congr (field?_of_build h)

/-- The entities of a schema are the declared ones, each of them once. -/
theorem values_perm_of_build (h : build entities = .ok schema) :
    schema.entities.values.Perm entities := by
  have hgains : Catalog.Gains Entity.name .empty entities schema.entities := gains_of_addAll h
  exact hgains.values_perm (exists_build_iff.1 ⟨schema, h⟩).entities_distinct

/-- **Building a schema checks everything and loses nothing.** It succeeds exactly if the
declarations are well-formed. Then a field is found exactly if it was declared under the names that
are looked up, and otherwise nothing is found; each entity stands under its name as it was declared,
with its fields in their order; and the entities are the declared ones, each of them once. -/
theorem build_keeps_declarations (entities : List Entity) :
    ((∃ schema, build entities = .ok schema) ↔ AreWellFormed entities) ∧
      ∀ schema, build entities = .ok schema →
        (∀ owner name field,
          schema.field? owner name = some field ↔ Declares entities owner name field) ∧
        (∀ owner name, schema.field? owner name = none ↔
          ∀ field, ¬ Declares entities owner name field) ∧
        (∀ name entity, schema.entity? name = some entity ↔
          entity ∈ entities ∧ entity.name = name) ∧
        schema.entities.values.Perm entities := by
  refine ⟨exists_build_iff, fun schema h => ⟨?_, ?_, ?_, values_perm_of_build h⟩⟩
  · intro owner name field
    exact field?_of_build h
  · intro owner name
    exact field?_eq_none_of_build h
  · intro name entity
    exact entity?_of_build h

/-- Two entities in the order of declaration, which is not that of their names. One field has a
qualified reference with a dollar sign, and both entities have a field of the same name. -/
def shopEntities : List Entity :=
  [⟨"User_2", [⟨"name", "users.full$name", .string, true, false⟩, .declare "_id" .id]⟩,
    ⟨"Item", [.declare "name" .string, .declare "state" (.enum "State")]⟩]

/-- The declarations of the shop are well-formed. Repeating them, or leaving a segment of a
reference empty, makes them ill-formed. -/
theorem build_keeps_declarations_shop :
    AreWellFormed shopEntities ∧
      ¬ AreWellFormed (shopEntities ++ shopEntities) ∧
      ¬ AreWellFormed [⟨"Item", [⟨"name", "items..name", .string, true, true⟩]⟩] ∧
      ∃ schema, build shopEntities = .ok schema ∧
        schema.field? "Item" "name" = some (.declare "name" .string) ∧
        schema.field? "Item" "_id" = none ∧ schema.entities.values.Perm shopEntities := by
  obtain ⟨hshop, hfound⟩ := build_keeps_declarations shopEntities
  have hbuild : ∃ schema, build shopEntities = .ok schema := ⟨_, rfl⟩
  have hrefused : ∀ {entities : List Entity}, failure? (build entities) ≠ none →
      ¬ AreWellFormed entities := by
    intro entities hfails hformed
    exact hfails (failure?_eq_none.2 ((build_keeps_declarations entities).1.2 hformed))
  refine ⟨hshop.1 hbuild, hrefused (by decide), hrefused (by decide), ?_⟩
  obtain ⟨schema, hschema⟩ := hbuild
  obtain ⟨hfield, hnone, -, hvalues⟩ := hfound schema hschema
  refine ⟨schema, hschema, (hfield _ _ _).2 ?_, (hnone _ _).2 ?_, hvalues⟩
  · exact ⟨⟨"Item", [.declare "name" .string, .declare "state" (.enum "State")]⟩, by decide, rfl,
      by decide, rfl⟩
  · rintro field ⟨entity, hentity, howner, hmem, hname⟩
    -- the field with this name is one of the other entity
    have hother : ∀ entity ∈ shopEntities, entity.name = "Item" →
        ∀ field ∈ entity.fields, field.name ≠ "_id" := by decide
    exact hother entity hentity howner field hmem hname

end Criteria.Schema
