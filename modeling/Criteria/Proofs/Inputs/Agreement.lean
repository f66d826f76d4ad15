import Criteria.Proofs.Engine
import Criteria.Proofs.Filter.Leaves
import Criteria.Proofs.Filter.Operand
import Criteria.Proofs.Inputs.Generated
import Criteria.Proofs.Registry.Custom

/-!
# Generated inputs and accepted documents

The generated inputs tell a client which operators it may write on which fields, and the reader
decides which it accepts. Both are asked here for the same leaves.

What is accepted is offered: every leaf of an accepted document is an operator that the filter input
offers on its field. What is offered is accepted, with a suitable operand, on every field but those
whose names are read as combinators. A schema accepts `_and`, `_or` and `_not` as names of fields,
and custom filters may be registered under them; such a field is offered, and no document reaches
it.

* `FilterField.Offers`, `FilterField.OffersLeaf` — what a field of a filter input offers;
* `accepts_offered` — an offered operator is accepted on a field that is read as one;
* `offers_accepted` — an accepted leaf is offered;
* `generate_agrees` — both, and that fields with the name of a combinator are never reached.
-/

namespace Criteria

/-! ### What is offered -/

namespace FilterField

/-- The built-in operators of a field, those of its operator input. -/
def builtin (inputs : Inputs) (entry : FilterField) : List Operator :=
  ((entry.operators.bind inputs.operatorInputs.get?).map fun input =>
    input.operators.map OperatorEntry.op).getD []

/-- A field offers the keys of its built-in operators and those of its custom ones. -/
def Offers (inputs : Inputs) (entry : FilterField) (key : String) : Prop :=
  (∃ op ∈ entry.builtin inputs, op.key = key) ∨ key ∈ entry.customOperators

/-- A field offers a leaf: a built-in one by its operator input, a custom one by itself. -/
def OffersLeaf (inputs : Inputs) (entry : FilterField) : Filter → Prop
  | .field name op _ => entry.name = name ∧ op ∈ entry.builtin inputs
  | .custom name key _ => entry.name = name ∧ key ∈ entry.customOperators
  | _ => False

end FilterField

/-- A leaf is on a field and has an operator of a key. -/
def Filter.IsLeafOn (name key : String) : Filter → Prop
  | .field own op _ => own = name ∧ op.key = key
  | .custom own ownKey _ => own = name ∧ ownKey = key
  | _ => False

/-! ### Documents of a single operator -/

namespace Filter

variable {scope : Scope} {name key : String} {operand : Json}

/-- The document of one operator on one field is read as the leaf of this operator. -/
theorem read_single {leaf : Filter} (hname : IsFieldKey name)
    (hknown : (scope.field? name).isSome = true ∨ scope.hasCustomField name = true)
    (hlimit : 1 ≤ scope.limits.maxPredicates)
    (hleaf : readLeaf scope name (scope.field? name) key operand = .ok leaf) :
    read scope (.object [(name, .object [(key, operand)])]) = .ok leaf := by
  have hread : readObject scope 0 [] 0 (.object [(name, .object [(key, operand)])]) =
      .ok (leaf, 1) :=
    readObject_operator (Nat.zero_le _) hlimit hname hknown hleaf
  exact read_of_readObject hread

end Filter

namespace Inputs

open Criteria.Filter (IsFieldKey IsLeafOn)

variable {engine : Engine} {types : List String} {entity : Entity} {entry : FilterField}
  {key : String} {field : Field}

theorem isFieldKey_iff {name : String} : IsFieldKey name ↔ name ∉ combinators := by
  simp [IsFieldKey, combinators]

/-! ### Fields of a filter input -/

section

variable {registry : Registry} {adapter : Adapter} {custom : CustomFilters}

/-- Every field of a filter input has the custom operators that are registered for it. -/
theorem customOperators_eq
    (hentry : entry ∈ (filterInput registry adapter custom entity).fields) :
    entry.customOperators = custom.operatorKeys entity.name entry.name := by
  rcases mem_fields_iff.1 hentry with ⟨field, -, hfield⟩ | ⟨name, -, -, rfl⟩
  · obtain ⟨hname, hkeys, -⟩ := filterField?_eq_some hfield
    rw [hkeys, hname]
  · rfl

/-- A field with a custom operator is in the filter input, declared or not. -/
theorem exists_entry_of_custom {name : String}
    (hkey : key ∈ custom.operatorKeys entity.name name) :
    ∃ entry ∈ (filterInput registry adapter custom entity).fields,
      entry.name = name ∧ key ∈ entry.customOperators := by
  cases hfield : entity.field? name with
  | none =>
    have hknown := CustomFilters.hasField_of_mem_operatorKeys hkey
    have hname := CustomFilters.mem_fieldNames_iff.2 hknown
    exact ⟨_, mem_fields_iff.2 (.inr ⟨name, hname, hfield, rfl⟩), rfl, hkey⟩
  | some field =>
    obtain ⟨hmem, rfl⟩ := Entity.mem_of_field? hfield
    by_cases hfilterable : field.filterable = true
    · have hentry := @filterField?_of_filterable entity registry adapter custom field hfilterable
      exact ⟨_, mem_fields_iff.2 (.inl ⟨field, hmem, hentry⟩), rfl, hkey⟩
    · have hentry := @filterField?_of_custom entity registry adapter custom field hfilterable
        (List.ne_nil_of_mem hkey)
      exact ⟨_, mem_fields_iff.2 (.inl ⟨field, hmem, hentry⟩), rfl, hkey⟩

end

section

variable (hproper : engine.schema.IsProper)
  (hentity : engine.schema.entity? entity.name = some entity) (htype : entity.name ∈ types)

include hproper hentity htype

/-- The built-in operators of a declared field are those that are legal on its kind. -/
theorem builtin_of_filterable (hfield : field ∈ entity.fields)
    (hfilterable : field.filterable = true)
    (hoperators : entry.operators =
      some (operatorInputName (engine.registry.effectiveKind field.kind engine.adapter))) :
    entry.builtin (generate engine types) =
      engine.registry.legalOperators field.kind engine.adapter := by
  have hkind : engine.registry.effectiveKind field.kind engine.adapter ∈
      kindsOf engine.registry engine.adapter entity :=
    List.mem_map.2 ⟨field, List.mem_filter.2 ⟨hfield, hfilterable⟩, rfl⟩
  unfold FilterField.builtin
  rw [hoperators, Option.bind_some, get?_operatorInputs hproper hentity htype hkind,
    Option.map_some, Option.getD_some]
  unfold operatorInput Registry.legalOperators
  rw [List.map_map]
  exact List.map_id _

/-- A field with a built-in operator is declared, can be filtered by, and the operator is legal on
its kind. -/
theorem field_of_mem_builtin {op : Operator}
    (hentry : entry ∈ (filterInput engine.registry engine.adapter engine.custom entity).fields)
    (hop : op ∈ entry.builtin (generate engine types)) :
    ∃ field ∈ entity.fields, field.name = entry.name ∧ field.filterable = true ∧
      engine.registry.isLegal field.kind engine.adapter op = true := by
  have hnone : entry.operators ≠ none := by
    intro hnone
    unfold FilterField.builtin at hop
    rw [hnone] at hop
    cases hop
  rcases mem_fields_iff.1 hentry with ⟨field, hfield, hsome⟩ | ⟨name, -, -, rfl⟩
  · obtain ⟨hname, -, ⟨hfilterable, hoperators⟩ | hoperators⟩ := filterField?_eq_some hsome
    · rw [builtin_of_filterable hproper hentity htype hfield hfilterable hoperators] at hop
      exact ⟨field, hfield, hname.symm, hfilterable, Registry.isLegal_iff.2 hop⟩
    · exact absurd hoperators hnone
  · exact absurd rfl hnone

/-- A legal operator of a field that can be filtered by is among those of its entry. -/
theorem exists_entry_of_legal {op : Operator} (hfield : field ∈ entity.fields)
    (hfilterable : field.filterable = true)
    (hlegal : engine.registry.isLegal field.kind engine.adapter op = true) :
    ∃ entry ∈ (filterInput engine.registry engine.adapter engine.custom entity).fields,
      entry.name = field.name ∧ op ∈ entry.builtin (generate engine types) := by
  have hentry := @filterField?_of_filterable entity engine.registry engine.adapter engine.custom
    field hfilterable
  refine ⟨_, mem_fields_iff.2 (.inl ⟨field, hfield, hentry⟩), rfl, ?_⟩
  rw [builtin_of_filterable hproper hentity htype hfield hfilterable rfl]
  exact Registry.isLegal_iff.1 hlegal

end

/-! ### Offered and accepted -/

section

variable (hproper : engine.schema.IsProper)
  (hentity : engine.schema.entity? entity.name = some entity) (htype : entity.name ∈ types)

include hproper hentity htype

/-- **What is offered is accepted**, with a suitable operand, on a field that is read as one. -/
theorem accepts_offered (hcustom : engine.custom.Assembled)
    (hlimit : 1 ≤ engine.limits.maxPredicates)
    (hentry : entry ∈ (filterInput engine.registry engine.adapter engine.custom entity).fields)
    (hoffers : entry.Offers (generate engine types) key) (hname : IsFieldKey entry.name) :
    ∃ operand leaf, leaf.IsLeafOn entry.name key ∧
      Filter.read (engine.scope entity.name) (.object [(entry.name, .object [(key, operand)])]) =
        .ok leaf := by
  have hfield? : ∀ name, (engine.scope entity.name).field? name = entity.field? name := by
    intro name
    change (engine.schema.entity? entity.name).bind _ = _
    rw [hentity, Option.bind_some]
  -- a registered operator is accepted as a custom one, whatever else it is offered as
  have haccepts : ∀ {key}, key ∈ engine.custom.operatorKeys entity.name entry.name →
      ∃ operand leaf, leaf.IsLeafOn entry.name key ∧
        Filter.read (engine.scope entity.name) (.object [(entry.name, .object [(key, operand)])]) =
          .ok leaf := by
    intro key hkey
    obtain ⟨hcanonical, hcontains⟩ := hcustom.mem_operatorKeys_iff.1 hkey
    have hknown := CustomFilters.hasField_of_mem_operatorKeys hkey
    refine ⟨.null, _, ?_, Filter.read_single hname (.inr hknown) hlimit
      (Filter.readLeaf_of_custom hcontains)⟩
    exact ⟨rfl, hcanonical⟩
  rcases hoffers with ⟨op, hop, rfl⟩ | hkey
  · obtain ⟨field, hfield, hfieldName, hfilterable, hlegal⟩ :=
      field_of_mem_builtin hproper hentity htype hentry hop
    by_cases hshadowed : engine.custom.contains entity.name entry.name op.key = true
    · have hkey := CustomFilters.canonicalKey_mem_operatorKeys hshadowed
      rw [CustomFilters.canonicalKey_key] at hkey
      exact haccepts hkey
    · have hdeclared : (engine.scope entity.name).field? entry.name = some field := by
        rw [hfield?, ← hfieldName]
        exact (hproper _ _ hentity).2.field?_name hfield
      obtain ⟨operand, hcheck⟩ := Operand.exists_check engine.registry engine.limits field op
      refine ⟨operand, .field entry.name op operand, ⟨rfl, rfl⟩,
        Filter.read_single hname (.inl (by rw [hdeclared]; rfl)) hlimit ?_⟩
      rw [hdeclared]
      exact Filter.readLeaf_of_builtin (Bool.eq_false_iff.2 hshadowed) hfilterable
        (Operator.ofKey?_key op) hlegal hcheck
  · rw [customOperators_eq hentry] at hkey
    exact haccepts hkey

/-- **What is accepted is offered**, by the field that the leaf is on. -/
theorem offers_accepted {document : Json} {filter leaf : Filter}
    (hread : Filter.read (engine.scope entity.name) document = .ok filter)
    (hleaf : leaf ∈ filter.leaves) :
    ∃ entry ∈ (filterInput engine.registry engine.adapter engine.custom entity).fields,
      entry.OffersLeaf (generate engine types) leaf := by
  cases Filter.checked_of_read hread leaf hleaf with
  | @field name op operand declared _ hdeclared hfilterable _ hlegal _ =>
    change (engine.schema.entity? entity.name).bind _ = _ at hdeclared
    rw [hentity, Option.bind_some] at hdeclared
    obtain ⟨hfield, rfl⟩ := Entity.mem_of_field? hdeclared
    exact exists_entry_of_legal hproper hentity htype hfield hfilterable hlegal
  | @custom name key operand _ hregistered =>
    exact exists_entry_of_custom (CustomFilters.canonicalKey_mem_operatorKeys hregistered)

end

/-- **The generated inputs and the reader agree**, but for fields with the name of a combinator. Of
every entity among the types, each operator that the filter input offers on another field is
accepted with some operand, as the single leaf of its document; no document has a leaf on a field
with the name of a combinator; and every leaf of an accepted document is offered. -/
theorem generate_agrees {entities : List Entity} {name : String}
    (hbuild : Schema.build entities = .ok engine.schema) (hcustom : engine.custom.Assembled)
    (hname : engine.schema.contains name = true) (htype : name ∈ types)
    (hlimit : 1 ≤ engine.limits.maxPredicates) :
    ∃ input, (generate engine types).filterInputs.get? (name ++ "Filter") = some input ∧
      input.entity = name ∧
      (∀ entry ∈ input.fields, ∀ key, entry.Offers (generate engine types) key →
        (entry.name ∉ combinators → ∃ operand leaf, leaf.IsLeafOn entry.name key ∧
          engine.readFilter name (.object [(entry.name, .object [(key, operand)])]) =
            .ok (engine.bind name leaf)) ∧
        (entry.name ∈ combinators → ∀ document bound,
          engine.readFilter name document = .ok bound →
            ∀ leaf ∈ bound.root.leaves, ¬ leaf.IsLeafOn entry.name key)) ∧
      ∀ document bound, engine.readFilter name document = .ok bound →
        ∀ leaf ∈ bound.root.leaves, ∃ entry ∈ input.fields,
          entry.OffersLeaf (generate engine types) leaf := by
  have hproper := Schema.isProper_of_build hbuild
  obtain ⟨entity, hentity⟩ := Option.isSome_iff_exists.1 hname
  obtain rfl := (hproper name entity hentity).1
  refine ⟨_, get?_filterInputs hproper hentity htype, rfl, ?_, ?_⟩
  · intro entry hentry key hoffers
    constructor
    · intro hcombinator
      obtain ⟨operand, leaf, hleaf, hread⟩ := accepts_offered hproper hentity htype hcustom hlimit
        hentry hoffers (isFieldKey_iff.2 hcombinator)
      exact ⟨operand, leaf, hleaf, Engine.readFilter_eq_ok.2 ⟨hname, leaf, hread, rfl⟩⟩
    · -- a leaf was read under a key that is none of the combinators
      intro hcombinator document bound hread leaf hleaf hon
      obtain ⟨-, root, hroot, rfl⟩ := Engine.readFilter_eq_ok.1 hread
      cases Filter.checked_of_read hroot leaf hleaf with
      | field hkey => exact isFieldKey_iff.1 hkey (hon.1 ▸ hcombinator)
      | custom hkey => exact isFieldKey_iff.1 hkey (hon.1 ▸ hcombinator)
  · intro document bound hread leaf hleaf
    obtain ⟨-, root, hroot, rfl⟩ := Engine.readFilter_eq_ok.1 hread
    exact offers_accepted hproper hentity htype hroot hleaf

/-- A filter input with a declared field, a field that is there for its custom operator and a
computed one; the secret is not in it. The first and the last are reached by what they offer, and
the leaf of a document is offered. -/
theorem generate_agrees_computed :
    let entity : Entity := ⟨"User", [.declare "tags" .array,
      ⟨"status", "u.status", .enum "Status", false, true⟩,
      ⟨"secret", "u.secret", .string, false, false⟩]⟩
    let custom : CustomFilters :=
      (CustomFilters.empty.register "User" "status" "active" fun _ => .ok (.sql [])).register
        "User" "rank" "_top" fun _ => .ok (.sql [])
    let engine : Engine := ⟨.sql .postgres, ⟨.ofList [("User", entity)]⟩, .empty, custom, {}⟩
    let inputs : Inputs := generate engine ["Ghost", "User"]
    let fields : List FilterField :=
      [⟨"tags", some "ArrayOperators", []⟩, ⟨"status", none, ["_active"]⟩,
        ⟨"rank", none, ["_top"]⟩]
    Schema.build [entity] = .ok engine.schema ∧ engine.custom.Assembled ∧
      inputs.filterInputs.get? "UserFilter" = some ⟨"UserFilter", "User", fields⟩ ∧
      (∃ operand leaf, leaf.IsLeafOn "tags" "_overlaps" ∧
        engine.readFilter "User" (.object [("tags", .object [("_overlaps", operand)])]) =
          .ok (engine.bind "User" leaf)) ∧
      (∃ operand leaf, leaf.IsLeafOn "rank" "_top" ∧
        engine.readFilter "User" (.object [("rank", .object [("_top", operand)])]) =
          .ok (engine.bind "User" leaf)) ∧
      engine.readFilter "User" (.object [("status", .object [("active", .null)])]) =
        .ok (engine.bind "User" (.custom "status" "_active" .null)) ∧
      ∃ entry ∈ fields, entry.OffersLeaf inputs (.custom "status" "_active" .null) := by
  have hbuild : Schema.build [⟨"User", [.declare "tags" .array,
        ⟨"status", "u.status", .enum "Status", false, true⟩,
        ⟨"secret", "u.secret", .string, false, false⟩]⟩] =
      .ok ⟨.ofList [("User", ⟨"User", [.declare "tags" .array,
        ⟨"status", "u.status", .enum "Status", false, true⟩,
        ⟨"secret", "u.secret", .string, false, false⟩]⟩)]⟩ := rfl
  intro entity custom engine inputs fields
  have hcustom : engine.custom.Assembled := .register (.register .empty)
  have hget : inputs.filterInputs.get? "UserFilter" = some ⟨"UserFilter", "User", fields⟩ := rfl
  have hread : engine.readFilter "User" (.object [("status", .object [("active", .null)])]) =
      .ok (engine.bind "User" (.custom "status" "_active" .null)) := rfl
  obtain ⟨input, hinput, -, hoffered, haccepted⟩ :=
    @generate_agrees engine ["Ghost", "User"] [entity] "User" hbuild hcustom rfl (by decide)
      (by decide)
  obtain rfl := Option.some.inj (hinput.symm.trans hget)
  have htags : (⟨"tags", some "ArrayOperators", []⟩ : FilterField).Offers inputs "_overlaps" :=
    .inl ⟨.overlaps, by decide, rfl⟩
  have hrank : (⟨"rank", none, ["_top"]⟩ : FilterField).Offers inputs "_top" :=
    .inr List.mem_cons_self
  refine ⟨hbuild, hcustom, hget, ?_, ?_, hread, ?_⟩
  · exact (hoffered _ (by simp [fields]) _ htags).1 (by decide)
  · exact (hoffered _ (by simp [fields]) _ hrank).1 (by decide)
  · exact haccepted _ _ hread _ (by simp [Engine.bind])

/-- **A field with the name of a combinator is offered and never reached.** The schema accepts the
name, the filter input offers an operator on it, and every document of this operator is refused. -/
theorem generate_offers_combinator :
    let entity : Entity := ⟨"User", [.declare "_and" .string]⟩
    let engine : Engine := ⟨.sql .postgres, ⟨.ofList [("User", entity)]⟩, .empty, .empty, {}⟩
    let inputs : Inputs := generate engine ["User"]
    let entry : FilterField := ⟨"_and", some "StringOperators", []⟩
    Schema.build [entity] = .ok engine.schema ∧
      inputs.filterInputs.get? "UserFilter" = some ⟨"UserFilter", "User", [entry]⟩ ∧
      entry.Offers inputs "_eq" ∧
      ∀ operand, engine.readFilter "User" (.object [("_and", .object [("_eq", operand)])]) =
        .error (.malformed [.key "_and"] .notObjectList) := by
  have hbuild : Schema.build [⟨"User", [.declare "_and" .string]⟩] =
      .ok ⟨.ofList [("User", ⟨"User", [.declare "_and" .string]⟩)]⟩ := rfl
  intro entity engine inputs entry
  refine ⟨hbuild, rfl, .inl ⟨.eq, ?_, rfl⟩, fun operand => rfl⟩
  exact List.mem_cons_self

end Inputs

end Criteria
