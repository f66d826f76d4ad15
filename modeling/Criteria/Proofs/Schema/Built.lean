import Criteria.Proofs.Catalog
import Criteria.Proofs.Outcome
import Criteria.Schema
import Mathlib.Data.List.Nodup

/-!
# Schemas that were built

`Schema.build` reports the first fault in a list of declarations. A schema that was built has none:
every entity stands under its own name, and its fields are well formed and have different names.

* `Unseen` — names that differ, from each other and from those read before them;
* `Field.IsProper`, `Entity.IsProper` — a field, or an entity, without faults;
* `checkFields_eq_ok` — the check of the fields passes exactly then;
* `Schema.IsProper` — the same for a schema, and `isProper_of_build` gives it;
* `Schema.IsProper.field?_eq_some_iff` — the fields of such a schema;
* `entity?_of_build` — the entities of a schema are those that were declared.
-/

namespace Criteria

/-! ### Names read in turn -/

/-- Names differ, from each other and from those that were read before them. -/
def Unseen (seen names : List String) : Prop := (∀ name ∈ names, name ∉ seen) ∧ names.Nodup

theorem unseen_nil {seen : List String} : Unseen seen [] := ⟨nofun, .nil⟩

/-- Where nothing was read before, names have to differ from each other. -/
theorem unseen_of_nil_iff {names : List String} : Unseen [] names ↔ names.Nodup :=
  and_iff_right fun _ _ => List.not_mem_nil

/-- The first name was not read before, and is so for those after it. -/
theorem unseen_cons_iff {seen names : List String} {name : String} :
    Unseen seen (name :: names) ↔ name ∉ seen ∧ Unseen (name :: seen) names := by
  unfold Unseen
  rw [List.forall_mem_cons, List.nodup_cons]
  constructor
  · rintro ⟨⟨hfirst, hlater⟩, hnew, hdistinct⟩
    refine ⟨hfirst, fun other hother hbefore => ?_, hdistinct⟩
    rcases List.mem_cons.1 hbefore with rfl | hbefore
    · exact hnew hother
    · exact hlater other hother hbefore
  · rintro ⟨hfirst, hlater, hdistinct⟩
    refine ⟨⟨hfirst, fun other hother hbefore => ?_⟩, fun hrepeated => ?_, hdistinct⟩
    · exact hlater other hother (List.mem_cons_of_mem _ hbefore)
    · exact hlater name hrepeated List.mem_cons_self

/-! ### Schemas without faults -/

/-- A field that a schema accepts: client and native names are names, and an enum is called by a
name that is free. -/
structure Field.IsProper (field : Field) : Prop where
  name : Schema.isIdentifier field.name = true
  reference : field.segments.all Schema.isNativeName = true
  kind : ∀ enum, field.kind = .enum enum → Kind.isReserved enum = false

/-- An entity that a schema accepts. -/
structure Entity.IsProper (entity : Entity) : Prop where
  name : Schema.isIdentifier entity.name = true
  fields : ∀ field ∈ entity.fields, field.IsProper
  distinct : (entity.fields.map Field.name).Nodup

/-- A schema without faults, in which entities stand under their names. -/
def Schema.IsProper (schema : Schema) : Prop :=
  ∀ name entity, schema.entity? name = some entity → entity.name = name ∧ entity.IsProper

/-- A field that is found is one of the entity's, under its name. -/
theorem Entity.mem_of_field? {entity : Entity} {name : String} {field : Field}
    (h : entity.field? name = some field) : field ∈ entity.fields ∧ field.name = name := by
  unfold Entity.field? at h
  exact ⟨List.mem_of_find?_eq_some h, by simpa using List.find?_some h⟩

/-- In a proper entity every field is found under its name, for no other field has it. -/
theorem Entity.IsProper.field?_name {entity : Entity} (hproper : entity.IsProper) {field : Field}
    (hfield : field ∈ entity.fields) : entity.field? field.name = some field := by
  cases hfound : entity.field? field.name with
  | none =>
    unfold Entity.field? at hfound
    have hmissing := List.find?_eq_none.1 hfound field hfield
    exact absurd (beq_self_eq_true field.name) hmissing
  | some found =>
    obtain ⟨hmem, hname⟩ := Entity.mem_of_field? hfound
    rw [List.inj_on_of_nodup_map hproper.distinct hmem hfield hname]

namespace Schema

/-- In a proper schema what is found are the fields of the entity that stands under its name. -/
theorem IsProper.field?_eq_some_iff {schema : Schema} (hproper : schema.IsProper)
    {owner name : String} {field : Field} :
    schema.field? owner name = some field ↔
      ∃ entity, schema.entity? owner = some entity ∧ entity.name = owner ∧
        field ∈ entity.fields ∧ field.name = name := by
  rw [Schema.field?, Option.bind_eq_some_iff]
  constructor
  · rintro ⟨entity, hentity, hfield⟩
    obtain ⟨hmem, hname⟩ := Entity.mem_of_field? hfield
    exact ⟨entity, hentity, (hproper owner entity hentity).1, hmem, hname⟩
  · rintro ⟨entity, hentity, -, hmem, rfl⟩
    exact ⟨entity, hentity, (hproper owner entity hentity).2.field?_name hmem⟩

/-! ### Fields -/

/-- The check of a kind, in front of the rest of the check of its field. -/
theorem checkKind_eq_ok {kind : Kind} {rest : Except DeclarationError Unit} :
    (match kind with
      | .enum enum =>
        if Kind.isReserved enum then Except.error (DeclarationError.reservedEnumName enum) else rest
      | _ => rest) = .ok () ↔
      (∀ enum, kind = .enum enum → Kind.isReserved enum = false) ∧ rest = .ok () := by
  cases kind with
  | enum enum => simp [refuse_eq_ok]
  | _ => simp

/-- The checks of a field, one behind the other. -/
theorem checkField_eq (entity : String) (seen : List String) (field : Field) :
    checkField entity seen field =
      if isIdentifier field.name then
        if field.segments.all isNativeName then
          let repeated : Except DeclarationError Unit :=
            if seen.contains field.name then .error (.duplicateField entity field.name) else .ok ()
          match field.kind with
          | .enum enum =>
            if Kind.isReserved enum then .error (.reservedEnumName enum) else repeated
          | _ => repeated
        else .error (.invalidNativeReference field.name field.reference)
      else .error (.invalidIdentifier field.name) := rfl

/-- A field passes if it is proper and none of the fields before it has its name. -/
theorem checkField_eq_ok {entity : String} {seen : List String} {field : Field} :
    checkField entity seen field = .ok () ↔ field.IsProper ∧ field.name ∉ seen := by
  rw [checkField_eq, guard_eq_ok, guard_eq_ok]
  dsimp only
  rw [checkKind_eq_ok, refuse_eq_ok, List.contains_iff_mem]
  constructor
  · rintro ⟨hname, hreference, hkind, hfresh, -⟩
    exact ⟨⟨hname, hreference, hkind⟩, hfresh⟩
  · rintro ⟨hproper, hfresh⟩
    exact ⟨hproper.name, hproper.reference, hproper.kind, hfresh, rfl⟩

/-- Fields pass if each is proper and their names differ, from each other and from those before
them. -/
theorem checkFields_eq_ok {entity : String} {fields : List Field} :
    ∀ {seen : List String}, checkFields entity seen fields = .ok () ↔
      (∀ field ∈ fields, field.IsProper) ∧ Unseen seen (fields.map Field.name) := by
  induction fields with
  | nil =>
    intro seen
    exact iff_of_true rfl ⟨nofun, unseen_nil⟩
  | cons field rest ih =>
    intro seen
    -- the rest is checked against the first name too, which is what keeps the names different
    rw [checkFields, check_bind_eq_ok, checkField_eq_ok, ih, List.forall_mem_cons, List.map_cons,
      unseen_cons_iff, and_and_and_comm]

/-! ### Entities -/

/-- The checks of an entity, one behind the other, and then the rest. -/
theorem addAll_cons_eq (entities : Catalog Entity) (entity : Entity) (rest : List Entity) :
    addAll entities (entity :: rest) =
      if isIdentifier entity.name then
        checkFields entity.name [] entity.fields >>= fun _ =>
          if entities.contains entity.name then .error (.duplicateEntity entity.name)
          else addAll (entities.insert entity.name entity) rest
      else .error (.invalidIdentifier entity.name) := rfl

/-- An entity is added if it is proper and none stands under its name. -/
theorem addAll_cons_eq_ok {entities : Catalog Entity} {entity : Entity} {rest : List Entity}
    {schema : Schema} :
    addAll entities (entity :: rest) = .ok schema ↔
      entity.IsProper ∧ entities.contains entity.name = false ∧
        addAll (entities.insert entity.name entity) rest = .ok schema := by
  rw [addAll_cons_eq, guard_eq_ok, check_bind_eq_ok, checkFields_eq_ok, unseen_of_nil_iff,
    refuse_eq_ok, Bool.not_eq_true]
  constructor
  · rintro ⟨hname, ⟨hfields, hdistinct⟩, hfresh, hrest⟩
    exact ⟨⟨hname, hfields, hdistinct⟩, hfresh, hrest⟩
  · rintro ⟨hproper, hfresh, hrest⟩
    exact ⟨hproper.name, ⟨hproper.fields, hproper.distinct⟩, hfresh, hrest⟩

/-- Adding entities to a proper schema leads to a proper schema. -/
theorem isProper_of_addAll {rest : List Entity} :
    ∀ {entities : Catalog Entity} {schema : Schema}, IsProper ⟨entities⟩ →
      addAll entities rest = .ok schema → schema.IsProper := by
  induction rest with
  | nil =>
    intro entities schema hproper h
    obtain rfl := Except.ok.inj h
    exact hproper
  | cons entity rest ih =>
    intro entities schema hproper h
    obtain ⟨hentity, -, hrest⟩ := addAll_cons_eq_ok.1 h
    refine ih (fun name found hfound => ?_) hrest
    -- what stands under a name is the new entity or was there before
    rw [entity?, Catalog.get?_insert] at hfound
    by_cases hname : name = entity.name
    · rw [if_pos hname] at hfound
      obtain rfl := Option.some.inj hfound
      exact ⟨hname.symm, hentity⟩
    · rw [if_neg hname] at hfound
      exact hproper name found hfound

theorem gains_of_addAll {rest : List Entity} :
    ∀ {entities : Catalog Entity} {schema : Schema}, addAll entities rest = .ok schema →
      Catalog.Gains Entity.name entities rest schema.entities := by
  induction rest with
  | nil =>
    intro entities schema h
    obtain rfl := Except.ok.inj h
    exact .nil
  | cons entity rest ih =>
    intro entities schema h
    obtain ⟨-, hfresh, hrest⟩ := addAll_cons_eq_ok.1 h
    exact .cons hfresh (ih hrest)

/-- **A schema that was built has the entities of its declarations**, each under its name. -/
theorem entity?_of_build {entities : List Entity} {schema : Schema} {name : String}
    {entity : Entity} (h : build entities = .ok schema) :
    schema.entity? name = some entity ↔ entity ∈ entities ∧ entity.name = name := by
  have hempty : (Catalog.empty : Catalog Entity).get? name ≠ some entity := nofun
  exact (gains_of_addAll h name entity).trans (or_iff_right hempty)

/-- **A schema that was built has no faults.** -/
theorem isProper_of_build {entities : List Entity} {schema : Schema}
    (h : build entities = .ok schema) : schema.IsProper := by
  have hempty : IsProper ⟨.empty⟩ := by
    intro name entity hnone
    cases hnone
  exact isProper_of_addAll hempty h

end Schema

end Criteria
