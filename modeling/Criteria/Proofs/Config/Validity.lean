import Criteria.Proofs.Schema.Declared
import Criteria.Proofs.TypeGraph.Declared

/-!
# Valid configurations

Validation looks for the first fault of a configuration. That it finds none is a property that has
no order: the limits are positive, no type has a blank name, and no name repeats among the types,
among the fields of a type, or among the enums (`Config.IsValid`).

Types and enums, as well as declarations and built-in scalars, may share names. That is why a graph
and a schema look at names again when they are built. After validation they find nothing to refuse:
the graph is always built, and gives a shared name to the type before the enum, and to the enum
before the scalar; the schema may have other faults, but never a name that was declared twice.

* `Config.validate_eq_ok_iff` — what passes validation;
* `Config.validate_builds` — what is built of it.
-/

namespace Criteria.Config

variable {config : Config} {limits : Limits} {seen names : List String} {types : List TypeSection}

/-! ### Validity -/

/-- What a configuration has to be like, whatever the order of its declarations. -/
structure IsValid (config : Config) : Prop where
  /-- Every limit is positive. -/
  limits : ∀ entry ∈ limitPaths config.limits, 0 < entry.2
  /-- No type has a blank name. -/
  named : ∀ type ∈ config.schema.types, Text.trim type.name ≠ ""
  /-- No two types have the same name. -/
  types : (config.schema.types.map TypeSection.name).Nodup
  /-- No two fields of a type have the same name. -/
  fields : ∀ type ∈ config.schema.types, (type.fields.map FieldSection.name).Nodup
  /-- No two enums have the same name. -/
  enums : (config.schema.enums.map EnumSection.name).Nodup

/-- No limit is zero if each is positive. -/
theorem validateLimits_eq_ok :
    validateLimits limits = .ok () ↔ ∀ entry ∈ limitPaths limits, 0 < entry.2 := by
  unfold validateLimits
  cases hzero : (limitPaths limits).find? fun entry => entry.2 == 0 with
  | some entry =>
    have hmem : entry ∈ limitPaths limits := List.mem_of_find?_eq_some hzero
    have hnull := List.find?_some hzero
    refine iff_of_false nofun fun hpositive => ?_
    exact Nat.ne_of_gt (hpositive entry hmem) (beq_iff_eq.1 hnull)
  | none =>
    refine iff_of_true rfl fun entry hentry => ?_
    have hnonzero := List.find?_eq_none.1 hzero entry hentry
    exact Nat.pos_of_ne_zero fun hnull => hnonzero (beq_iff_eq.2 hnull)

/-- No name repeats if the names differ, from each other and from those before them. -/
theorem firstRepeated?_eq_none_iff : firstRepeated? seen names = none ↔ Unseen seen names := by
  induction names generalizing seen with
  | nil => exact iff_of_true rfl unseen_nil
  | cons name names ih =>
    rw [firstRepeated?, unseen_cons_iff, ← ih]
    by_cases hseen : name ∈ seen
    · rw [if_pos (List.contains_iff_mem.2 hseen)]
      exact iff_of_false nofun fun h => h.1 hseen
    · rw [if_neg (mt List.contains_iff_mem.1 hseen)]
      exact (and_iff_right hseen).symm

/-- What is refused for a name that repeats needs names that differ. -/
theorem repeated_eq_ok_iff {fault : String → Fault} :
    (match firstRepeated? [] names with
      | some name => .error (fault name)
      | none => .ok () : Except Fault Unit) = .ok () ↔ names.Nodup := by
  rw [← unseen_of_nil_iff, ← firstRepeated?_eq_none_iff]
  cases firstRepeated? [] names with
  | some name => exact iff_of_false nofun nofun
  | none => exact iff_of_true rfl rfl

/-- The checks of a type, one behind the other, and then the rest. -/
theorem validateTypes_cons_eq (type : TypeSection) (rest : List TypeSection) :
    validateTypes seen (type :: rest) =
      if Text.trim type.name = "" then
        .error ⟨"schema.types.name", "type name must not be empty"⟩
      else if seen.contains type.name then
        .error ⟨"schema.types." ++ type.name, "duplicate type name"⟩
      else validateFields type >>= fun _ => validateTypes (type.name :: seen) rest := rfl

/-- Types pass if none has a blank name or repeats the name of a field, and if their own names
differ, from each other and from those before them. -/
theorem validateTypes_eq_ok :
    ∀ {seen : List String}, validateTypes seen types = .ok () ↔
      (∀ type ∈ types, Text.trim type.name ≠ "" ∧ (type.fields.map FieldSection.name).Nodup) ∧
        Unseen seen (types.map TypeSection.name) := by
  induction types with
  | nil =>
    intro seen
    exact iff_of_true rfl ⟨nofun, unseen_nil⟩
  | cons type rest ih =>
    intro seen
    have hfields : validateFields type = .ok () ↔ (type.fields.map FieldSection.name).Nodup :=
      repeated_eq_ok_iff
    rw [validateTypes_cons_eq, refuse_eq_ok, refuse_eq_ok, check_bind_eq_ok, hfields, ih,
      List.contains_iff_mem, List.forall_mem_cons, List.map_cons, unseen_cons_iff]
    tauto

/-- **A configuration passes validation exactly if it is valid.** -/
theorem validate_eq_ok_iff : config.validate = .ok () ↔ config.IsValid := by
  have henums : validateEnums config.schema.enums = .ok () ↔
      (config.schema.enums.map EnumSection.name).Nodup := repeated_eq_ok_iff
  rw [validate, check_bind_eq_ok, check_bind_eq_ok, validateLimits_eq_ok, validateTypes_eq_ok,
    unseen_of_nil_iff, henums]
  constructor
  · rintro ⟨hlimits, ⟨htypes, hdistinct⟩, henums⟩
    exact ⟨hlimits, fun type htype => (htypes type htype).1, hdistinct,
      fun type htype => (htypes type htype).2, henums⟩
  · intro h
    refine ⟨h.limits, ⟨fun type htype => ?_, h.types⟩, h.enums⟩
    exact ⟨h.named type htype, h.fields type htype⟩

/-! ### Building -/

/-- **What passed validation can be built.** There is a graph, and its nodes are the declared types
of their own sorts, the declared enums that are no types, and the built-in scalars that are neither,
each once and under its name. A schema is not refused for a name that was declared twice, neither
that of an entity nor that of a field. -/
theorem validate_builds (h : config.validate = .ok ()) :
    (∃ graph, TypeGraph.ofConfig config.schema = .ok graph ∧
      graph.types.values.Perm (TypeGraph.declaredNodes config.schema) ∧
      (∀ name node, graph.node? name = some node ↔
        node ∈ TypeGraph.declaredNodes config.schema ∧ node.name = name) ∧
      ∀ type ∈ config.schema.types, graph.sort? type.name = some type.sort) ∧
    (∀ entity, Schema.ofConfig config.schema ≠ .error (.duplicateEntity entity)) ∧
    ∀ entity field, Schema.ofConfig config.schema ≠ .error (.duplicateField entity field) := by
  have hvalid : config.IsValid := validate_eq_ok_iff.1 h
  refine ⟨?_, fun entity hrefused => ?_, fun entity field hrefused => ?_⟩
  · obtain ⟨graph, hgraph⟩ := TypeGraph.exists_ofConfig hvalid.types hvalid.enums
    refine ⟨graph, hgraph, TypeGraph.values_perm_of_ofConfig hgraph, fun name node => ?_,
      fun type htype => ?_⟩
    · exact TypeGraph.node?_of_ofConfig hgraph
    · exact TypeGraph.sort?_of_ofConfig hgraph htype
  · have hrefusal := Schema.noRepetition_ofConfig hvalid.types hvalid.fields _ hrefused
    exact hrefusal trivial
  · have hrefusal := Schema.noRepetition_ofConfig hvalid.types hvalid.fields _ hrefused
    exact hrefusal trivial

/-- Names that are used more than once, though never twice for the same: an enum has the name of a
type, another one that of a built-in scalar, and two types have a field of the same name. One type
has a name that no schema accepts, but for another reason. -/
def sharedNames : Config where
  schema :=
    { roots := ["Order"]
      types :=
        [{ name := "Order", fields := [{ name := "id", kind := "id" }] },
         { name := "Order line", fields := [{ name := "id", kind := "id" }] },
         { name := "Status", sort := .enum }]
      enums := [{ name := "Status" }, { name := "String" }] }

theorem validate_builds_sharedNames :
    sharedNames.validate = .ok () ∧
    (∃ graph, TypeGraph.ofConfig sharedNames.schema = .ok graph ∧
      graph.types.values.Perm
        [⟨"Order", .object, []⟩, ⟨"Order line", .object, []⟩, ⟨"Status", .enum, []⟩,
          ⟨"String", .enum, []⟩, ⟨"ID", .scalar, []⟩, ⟨"Int", .scalar, []⟩, ⟨"Float", .scalar, []⟩,
          ⟨"Boolean", .scalar, []⟩, ⟨"DateTime", .scalar, []⟩, ⟨"Date", .scalar, []⟩,
          ⟨"Time", .scalar, []⟩, ⟨"JSON", .scalar, []⟩]) ∧
    Schema.ofConfig sharedNames.schema = .error (.invalidIdentifier "Order line") ∧
    Schema.ofConfig sharedNames.schema ≠ .error (.duplicateField "Order line" "id") := by
  have hvalid : sharedNames.validate = .ok () := by decide +kernel
  obtain ⟨⟨graph, hgraph, hnodes, -, -⟩, -, hfields⟩ := validate_builds hvalid
  refine ⟨hvalid, ⟨graph, hgraph, hnodes⟩, ?_, hfields "Order line" "id"⟩
  rfl

end Criteria.Config
