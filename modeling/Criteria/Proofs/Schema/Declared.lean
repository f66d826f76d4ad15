import Criteria.Config.Declarations
import Criteria.Proofs.Schema.Built

/-!
# The schema of a configuration

The entities of a configuration are its objects and interfaces. Each is declared under the name of
its type, and its fields under their own names and in their order; so where the names in a
configuration do not repeat, neither do those in the schema. What can still be wrong then is a
single kind, name or reference, and never that a name was declared more than once.

* `Schema.contains_of_ofConfig` — the entities of the schema;
* `DeclarationError.IsRepetition` — the failures for repeated names;
* `Schema.noRepetition_build`, `Schema.noRepetition_ofConfig` — names that differ cause none.
-/

namespace Criteria

variable {name : String}

/-! ### Entities -/

/-- A field is declared under its name. -/
theorem Field.name_of_ofConfig {declared : Config.FieldSection} {field : Field}
    (h : Field.ofConfig declared = .ok field) : field.name = declared.name := by
  unfold Field.ofConfig at h
  cases hkind : declared.kind with
  | none =>
    rw [hkind] at h
    obtain rfl := Except.ok.inj h
    rfl
  | some kind =>
    rw [hkind] at h
    obtain ⟨read, -, h⟩ := bind_eq_ok.1 h
    obtain rfl := Except.ok.inj h
    rfl

/-- An entity is declared under the name of its type. -/
theorem Entity.name_of_ofConfig {type : Config.TypeSection} {entity : Entity}
    (h : Entity.ofConfig type = .ok entity) : entity.name = type.name := by
  obtain ⟨fields, -, h⟩ := bind_eq_ok.1 h
  exact (congrArg Entity.name (Except.ok.inj h)).symm

/-- An entity has the fields of its type, in their order. -/
theorem Entity.fieldNames_of_ofConfig {type : Config.TypeSection} {entity : Entity}
    (h : Entity.ofConfig type = .ok entity) :
    entity.fields.map Field.name = type.fields.map Config.FieldSection.name := by
  obtain ⟨fields, hfields, h⟩ := bind_eq_ok.1 h
  obtain rfl := Except.ok.inj h
  exact map_eq_map_of_mapM_eq_ok (fun _ _ => Field.name_of_ofConfig) hfields

/-- Entities are declared under the names of their types, in the order of these. -/
theorem Entity.names_of_mapM_ofConfig {types : List Config.TypeSection} {entities : List Entity}
    (h : types.mapM Entity.ofConfig = .ok entities) :
    entities.map Entity.name = types.map Config.TypeSection.name :=
  map_eq_map_of_mapM_eq_ok (fun _ _ => Entity.name_of_ofConfig) h

/-- A schema that a configuration declares was built. -/
theorem Schema.isProper_of_ofConfig {declared : Config.SchemaSection} {schema : Schema}
    (h : Schema.ofConfig declared = .ok schema) : schema.IsProper := by
  obtain ⟨entities, -, hbuild⟩ := bind_eq_ok.1 h
  exact isProper_of_build hbuild

/-- **The entities of the schema are the declared types of such a sort.** -/
theorem Schema.contains_of_ofConfig {declared : Config.SchemaSection} {schema : Schema}
    (h : Schema.ofConfig declared = .ok schema) :
    schema.contains name = true ↔
      ∃ type ∈ declared.types, type.name = name ∧ type.sort.isEntity = true := by
  obtain ⟨entities, hentities, hbuild⟩ := bind_eq_ok.1 h
  have hcontains : schema.contains name = true ↔ name ∈ entities.map Entity.name := by
    rw [contains, Catalog.contains_iff, List.mem_map]
    exact exists_congr fun entity => entity?_of_build hbuild
  rw [hcontains, Entity.names_of_mapM_ofConfig hentities, List.mem_map]
  constructor
  · rintro ⟨type, htype, rfl⟩
    obtain ⟨hmem, hentity⟩ := List.mem_filter.1 htype
    exact ⟨type, hmem, rfl, hentity⟩
  · rintro ⟨type, hmem, rfl, hentity⟩
    exact ⟨type, List.mem_filter.2 ⟨hmem, hentity⟩, rfl⟩

/-! ### Failures -/

/-- A name was declared more than once. -/
def DeclarationError.IsRepetition : DeclarationError → Prop
  | .duplicateEntity _ | .duplicateField _ _ => True
  | _ => False

/-- A computation does not fail for a name that was declared more than once. -/
def NoRepetition {α : Type} (outcome : Except DeclarationError α) : Prop :=
  FailsWith (fun fault => ¬ fault.IsRepetition) outcome

/-- A kind is read without regard to other names. -/
theorem Kind.noRepetition_read (text : String) : NoRepetition (Kind.read text) := by
  unfold Kind.read
  split
  · unfold Kind.readEnum
    -- the name is refused for what it is, empty or reserved
    refine .ite (fun _ => failsWith_error.2 not_false) fun _ => ?_
    exact .ite (fun _ => failsWith_error.2 not_false) fun _ => failsWith_ok _
  · split
    · exact failsWith_ok _
    · exact failsWith_error.2 not_false

theorem Field.noRepetition_ofConfig (declared : Config.FieldSection) :
    NoRepetition (Field.ofConfig declared) := by
  unfold Field.ofConfig
  cases declared.kind with
  | none => exact failsWith_pure _
  | some kind => exact (Kind.noRepetition_read kind).bind fun kind => failsWith_pure _

theorem Entity.noRepetition_ofConfig (type : Config.TypeSection) :
    NoRepetition (Entity.ofConfig type) := by
  refine FailsWith.bind (.mapM fun field _ => ?_) fun fields => failsWith_pure _
  exact Field.noRepetition_ofConfig field

namespace Schema

/-- A field does not repeat the names before it if its own is not among them. -/
theorem noRepetition_checkField {entity : String} {seen : List String} {field : Field}
    (hfresh : field.name ∉ seen) : NoRepetition (checkField entity seen field) := by
  have hrepeated : NoRepetition
      (if seen.contains field.name then Except.error (.duplicateField entity field.name)
        else .ok ()) := by
    refine .ite (fun htaken => ?_) fun _ => failsWith_ok ()
    exact absurd (List.contains_iff_mem.1 htaken) hfresh
  rw [checkField_eq]
  -- the checks of the field by itself stand before that of its name among others
  refine .guard not_false fun _ => .guard not_false fun _ => ?_
  cases field.kind with
  | enum name => exact .ite (fun _ => failsWith_error.2 not_false) fun _ => hrepeated
  | _ => exact hrepeated

/-- Nor do fields whose names differ, from each other and from those before them. -/
theorem noRepetition_checkFields {entity : String} {fields : List Field} :
    ∀ {seen : List String}, Unseen seen (fields.map Field.name) →
      NoRepetition (checkFields entity seen fields) := by
  induction fields with
  | nil =>
    intro seen _
    exact failsWith_ok ()
  | cons field rest ih =>
    intro seen hunseen
    obtain ⟨hfield, hrest⟩ := unseen_cons_iff.1 hunseen
    exact (noRepetition_checkField hfield).bind fun _ => ih hrest

/-- Entities repeat no name if their names are fresh, and those of the fields of each differ. -/
theorem noRepetition_addAll {rest : List Entity} :
    ∀ {entities : Catalog Entity}, Catalog.Fresh Entity.name entities rest →
      (∀ entity ∈ rest, (entity.fields.map Field.name).Nodup) →
        NoRepetition (addAll entities rest) := by
  induction rest with
  | nil =>
    intro entities _ _
    exact failsWith_ok _
  | cons entity rest ih =>
    intro entities hfresh hdistinct
    obtain ⟨hfree, hfresh⟩ := Catalog.fresh_cons_iff.1 hfresh
    obtain ⟨hfields, hrest⟩ := List.forall_mem_cons.1 hdistinct
    rw [addAll_cons_eq]
    refine .guard not_false fun _ => ?_
    refine (noRepetition_checkFields (unseen_of_nil_iff.2 hfields)).bind fun _ => ?_
    refine .ite (fun htaken => ?_) fun _ => ih hfresh hrest
    rw [hfree] at htaken
    cases htaken

/-- Declarations whose names differ are not refused for a repeated name. -/
theorem noRepetition_build {entities : List Entity} (hdistinct : (entities.map Entity.name).Nodup)
    (hfields : ∀ entity ∈ entities, (entity.fields.map Field.name).Nodup) :
    NoRepetition (build entities) :=
  noRepetition_addAll (Catalog.fresh_empty_iff.2 hdistinct) hfields

/-- **Nor is a configuration whose names differ**, whatever else may be wrong with it. -/
theorem noRepetition_ofConfig {declared : Config.SchemaSection}
    (hdistinct : (declared.types.map Config.TypeSection.name).Nodup)
    (hfields : ∀ type ∈ declared.types, (type.fields.map Config.FieldSection.name).Nodup) :
    NoRepetition (ofConfig declared) := by
  refine FailsWith.bind_of_ok (.mapM fun type _ => Entity.noRepetition_ofConfig type) ?_
  intro entities hentities
  have hfieldNames : entities.map (fun entity => entity.fields.map Field.name) =
      (declared.types.filter fun type => type.sort.isEntity).map fun type =>
        type.fields.map Config.FieldSection.name :=
    map_eq_map_of_mapM_eq_ok (fun _ _ => Entity.fieldNames_of_ofConfig) hentities
  refine noRepetition_build ?_ fun entity hentity => ?_
  · rw [Entity.names_of_mapM_ofConfig hentities]
    exact hdistinct.sublist (List.filter_sublist.map _)
  · -- the entity has the names of the fields of some type
    have hmem := List.mem_map_of_mem (f := fun entity => entity.fields.map Field.name) hentity
    rw [hfieldNames] at hmem
    obtain ⟨type, htype, hsame⟩ := List.mem_map.1 hmem
    rw [← hsame]
    exact hfields type (List.mem_filter.1 htype).1

end Schema

end Criteria
