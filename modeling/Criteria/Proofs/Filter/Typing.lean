import Criteria.Proofs.Engine
import Criteria.Proofs.Filter.Leaves
import Criteria.Proofs.Filter.Operand
import Criteria.Proofs.Filter.Parameters
import Criteria.Proofs.Registry.Assembly
import Criteria.Proofs.Sql.Support

/-!
# Parameters have the kinds of their fields

The reader checks an operand by the shape that its operator has, and the compiler binds values by
the operator alone. Neither looks at the other. What they agree on is stated here for the values
that reach the database: each of them belongs to the kind of the field it is compared with, and none
is `null`, so that no comparison with `NULL` is ever sent.

Patterns are the delicate case. An operator on text takes any text, whatever the kind of the field,
and it binds a text; that this is right is a fact about the base sets, which give such an operator
to fields of text only. An operator on the elements of an array binds a whole list as one value.

* `Registry.OfKind` — a value belongs to a kind;
* `Scope.Fits` — a value is one that an operator may bind on a field of a kind;
* `fits_of_check` — a legal operator with a checked operand binds such values only;
* `filter_binds_typed` — so does every filter that an engine accepts and compiles.
-/

namespace Criteria

/-! ### Values of a kind -/

/-- A value belongs to a kind. An enum that lists values has no others. -/
def Registry.OfKind (registry : Registry) (kind : Kind) (value : Json) : Prop :=
  match kind with
  | .id => (∃ text, value = .string text) ∨ ∃ i, value = .int i
  | .string => ∃ text, value = .string text
  | .integer => ∃ i, value = .int i
  | .float => ∃ number, value = .number number
  | .boolean => ∃ positive, value = .bool positive
  | .dateTime => ∃ text, value = .string text ∧ Calendar.isDateTime text = true
  | .date => ∃ text, value = .string text ∧ Calendar.isDate text = true
  | .time => ∃ text, value = .string text ∧ Calendar.isTime text = true
  | .enum name => ∃ text, value = .string text ∧
      ∀ entry, registry.enums.get? name = some entry → entry.values ≠ [] → text ∈ entry.values
  | .array | .geoPoint | .generic => value ≠ .null

/-- A value is one that an operator may bind on a field of a kind. The operators on the elements of
an array bind a list of elements. -/
def Scope.Fits (scope : Scope) (kind : Kind) (op : Operator) (value : Json) : Prop :=
  if kind = .array ∧ (op = .contains ∨ op = .overlaps) then
    ∃ items, value = .array items ∧ items.length ≤ scope.limits.maxListLength ∧
      ∀ item ∈ items, item ≠ .null
  else scope.registry.OfKind kind value

variable {registry : Registry} {scope : Scope} {kind : Kind} {op : Operator} {value : Json}

/-- No kind has `null` as a value. -/
theorem Registry.OfKind.ne_null (h : registry.OfKind kind value) : value ≠ .null := by
  rintro rfl
  cases kind <;> simp [OfKind, Json.int] at h

theorem Scope.Fits.ne_null (h : scope.Fits kind op value) : value ≠ .null := by
  unfold Fits at h
  split at h
  · obtain ⟨items, rfl, -⟩ := h
    exact nofun
  · exact h.ne_null

/-! ### Checked values -/

namespace Operand

/-- The values of an enum that is listed with some. -/
theorem enumValues?_eq_some {name : String} {entry : EnumEntry}
    (hentry : registry.enums.get? name = some entry) (hne : entry.values ≠ []) :
    registry.enumValues? name = some entry.values := by
  unfold Registry.enumValues?
  rw [hentry]
  exact if_neg (by simpa using hne)

theorem ofKind_of_checkEnum {name : String} (h : checkEnum registry name value = .ok ()) :
    registry.OfKind (.enum name) value := by
  unfold checkEnum at h
  cases value with
  | string text =>
    refine ⟨text, rfl, ?_⟩
    intro entry hentry hne
    rw [enumValues?_eq_some hentry hne] at h
    simpa using ite_eq_ok.1 h
  | _ => cases h

theorem ofKind_of_isOfKind (hkind : ∀ name, kind ≠ .enum name) (hpresent : value ≠ .null)
    (h : isOfKind kind value = true) : registry.OfKind kind value := by
  cases kind with
  | enum name => exact absurd rfl (hkind name)
  | array | geoPoint | generic => exact hpresent
  | id =>
    cases value with
    | string text => exact .inl ⟨text, rfl⟩
    | number number =>
      cases number with
      | int i => exact .inr ⟨i, rfl⟩
      | double x => cases h
    | _ => cases h
  | integer =>
    cases value with
    | number number =>
      cases number with
      | int i => exact ⟨i, rfl⟩
      | double x => cases h
    | _ => cases h
  | float =>
    cases value with
    | number number => exact ⟨number, rfl⟩
    | _ => cases h
  | boolean =>
    cases value with
    | bool positive => exact ⟨positive, rfl⟩
    | _ => cases h
  | string | dateTime | date | time =>
    cases value with
    | string text => first | exact ⟨text, rfl⟩ | exact ⟨text, rfl, h⟩
    | _ => cases h

/-- **A checked value belongs to its kind.** -/
theorem ofKind_of_checkValue (h : checkValue registry kind value = .ok ()) :
    registry.OfKind kind value := by
  unfold checkValue at h
  obtain ⟨hpresent, h⟩ := check_bind_eq_ok.1 h
  rw [checkPresent_eq_ok] at hpresent
  cases kind with
  | enum name => exact ofKind_of_checkEnum h
  | _ => exact ofKind_of_isOfKind nofun hpresent (ite_eq_ok.1 h)

/-- An element of a list has the kind of the field, or none if the field is an array. -/
theorem ofKind_of_checkItem (h : checkItem registry kind value = .ok ()) :
    registry.OfKind kind value := by
  unfold checkItem at h
  split at h
  · next hkind =>
    rw [hkind]
    exact checkPresent_eq_ok.1 h
  · exact ofKind_of_checkValue h

end Operand

/-! ### Legal operators -/

/-- The base sets of a dialect give operators on text to fields of text, but for the operator that
also tests the elements of an array. -/
theorem Registry.kind_of_takesText {dialect : Dialect}
    (hbase : op ∈ baseOperators kind (.sql dialect) ∨ op ∈ baseOperators .generic (.sql dialect))
    (htext : Operand.takesText op = true) :
    kind = .string ∨ (kind = .array ∧ op = .contains) := by
  have hgeneric : op ∉ baseOperators .generic (.sql dialect) := by
    intro hop
    simp only [baseOperators, List.mem_cons, List.not_mem_nil, or_false] at hop
    rcases hop with rfl | rfl | rfl <;> cases htext
  have hop := hbase.resolve_right hgeneric
  cases kind with
  | string => exact .inl rfl
  | array =>
    refine .inr ⟨rfl, ?_⟩
    cases dialect <;> simp [baseOperators, arrayOperators] at hop
    rcases hop with rfl | rfl | rfl
    · rfl
    · cases htext
    · cases htext
  | geoPoint => cases hop
  | _ =>
    -- none of the other sets has an operator on text
    simp only [baseOperators, enumOperators, List.mem_cons, List.not_mem_nil, or_false] at hop
    rcases hop with rfl | rfl | rfl | rfl | rfl | rfl | rfl | rfl | rfl | rfl <;> cases htext

/-- What tests the elements of an array is for fields that are arrays. -/
theorem Registry.kind_of_overlaps {dialect : Dialect}
    (hbase : Operator.overlaps ∈ baseOperators kind (.sql dialect) ∨
      Operator.overlaps ∈ baseOperators .generic (.sql dialect)) : kind = .array := by
  have hop := hbase.resolve_right (by simp [baseOperators])
  cases kind with
  | array => rfl
  | string => cases dialect <;> simp [baseOperators, stringOperators] at hop
  | _ => simp [baseOperators, enumOperators, geoOperators] at hop

/-! ### Leaves -/

variable {dialect : Dialect} {field : Field} {operand : Json}

theorem Scope.fits_of_ofKind (hop : op ≠ .contains ∧ op ≠ .overlaps)
    (h : scope.registry.OfKind kind value) : scope.Fits kind op value := by
  unfold Fits
  rw [if_neg]
  · exact h
  · rintro ⟨-, hcontains | hoverlaps⟩
    · exact hop.1 hcontains
    · exact hop.2 hoverlaps

theorem Scope.fits_of_elements (hkind : kind = .array) (hop : op = .contains ∨ op = .overlaps)
    {items : List Json} (hlength : items.length ≤ scope.limits.maxListLength)
    (hitems : ∀ item ∈ items, Operand.checkItem scope.registry kind item = .ok ()) :
    scope.Fits kind op (.array items) := by
  unfold Fits
  rw [if_pos ⟨hkind, hop⟩]
  refine ⟨items, rfl, hlength, ?_⟩
  intro item hitem
  exact (Operand.ofKind_of_checkItem (hitems item hitem)).ne_null

/-- **A legal operator binds values of the field's kind**, if its operand was checked. -/
theorem fits_of_check
    (hbase : op ∈ Registry.baseOperators field.kind (.sql dialect) ∨
      op ∈ Registry.baseOperators .generic (.sql dialect))
    (hcheck : Operand.check scope.registry scope.limits field op operand = .ok ()) :
    ∀ value ∈ Sql.leafBindings dialect field.kind op operand,
      scope.Fits field.kind op value := by
  have hsupports : Sql.supports dialect field.kind op = true :=
    hbase.elim Sql.supports_of_mem_baseOperators Sql.supports_of_mem_generic
  -- the shape of the operand tells what the check asked of it, and the operator what it binds
  cases op with
  | eq | neq | gt | gte | lt | lte =>
    have hvalue := Operand.ofKind_of_checkValue ((Operand.check_scalar rfl rfl).1 hcheck)
    exact List.forall_mem_singleton.2 (Scope.fits_of_ofKind (by decide) hvalue)
  | isIn | notIn =>
    obtain ⟨items, rfl, -, hitems⟩ := (Operand.check_list rfl).1 hcheck
    intro value hvalue
    exact Scope.fits_of_ofKind (by decide) (Operand.ofKind_of_checkItem (hitems value hvalue))
  | between =>
    obtain ⟨low, high, rfl, hlow, hhigh⟩ := (Operand.check_range rfl).1 hcheck
    have hlow := Operand.ofKind_of_checkValue hlow
    have hhigh := Operand.ofKind_of_checkValue hhigh
    exact List.forall_mem_cons.2 ⟨Scope.fits_of_ofKind (by decide) hlow,
      List.forall_mem_singleton.2 (Scope.fits_of_ofKind (by decide) hhigh)⟩
  | isNull => exact List.forall_mem_nil _
  | like | ilike | startsWith | endsWith =>
    obtain ⟨text, rfl⟩ := (Operand.check_text rfl rfl).1 hcheck
    -- the text, or a pattern made of it, is bound on a field of text
    have hkind : field.kind = .string :=
      (Registry.kind_of_takesText hbase rfl).resolve_right (by simp)
    refine List.forall_mem_singleton.2 (Scope.fits_of_ofKind (by decide) ?_)
    rw [hkind]
    exact ⟨_, rfl⟩
  | contains =>
    rcases Registry.kind_of_takesText hbase rfl with hkind | ⟨hkind, -⟩
    · have hshape : Operator.contains.shape field.kind = .scalar := by
        simp [Operator.shape, hkind]
      obtain ⟨text, rfl⟩ := (Operand.check_text hshape rfl).1 hcheck
      simp [Sql.leafBindings, hkind, Scope.Fits, Registry.OfKind]
    · have hshape : Operator.contains.shape field.kind = .list := by
        simp [Operator.shape, hkind]
      obtain ⟨items, rfl, hlength, hitems⟩ := (Operand.check_list hshape).1 hcheck
      exact List.forall_mem_singleton.2 (Scope.fits_of_elements hkind (.inl rfl) hlength hitems)
  | overlaps =>
    obtain ⟨items, rfl, hlength, hitems⟩ := (Operand.check_list rfl).1 hcheck
    have hkind := Registry.kind_of_overlaps hbase
    exact List.forall_mem_singleton.2 (Scope.fits_of_elements hkind (.inr rfl) hlength hitems)
  | fullText | phrase | near | withinDistance | withinBounds => cases hsupports

/-- What a leaf binds is its operand, a part of it, or a text. -/
theorem fits64_of_leafBindings {kind : Kind} (hoperand : operand.Fits64) :
    ∀ value ∈ Sql.leafBindings dialect kind op operand, value.Fits64 := by
  unfold Sql.leafBindings
  split
  · exact Json.fits64_array.1 hoperand
  · exact Json.fits64_array.1 hoperand
  · exact Json.fits64_array.1 hoperand
  · exact List.forall_mem_nil _
  · split <;> exact List.forall_mem_singleton.2 (Json.fits64_string _)
  · exact List.forall_mem_singleton.2 (Json.fits64_string _)
  · exact List.forall_mem_singleton.2 (Json.fits64_string _)
  · exact List.forall_mem_singleton.2 hoperand

/-! ### Filters -/

namespace Filter

mutual

/-- A filter is built in if all its leaves are. -/
theorem isBuiltin_of_leaves (filter : Filter)
    (h : ∀ leaf ∈ filter.leaves, leaf.isBuiltin = true) : filter.isBuiltin = true := by
  match filter with
  | .all parts | .any parts =>
    rw [isBuiltin]
    exact areBuiltin_of_leaves parts (fun leaf hleaf => h leaf (by simpa using hleaf))
  | .not part =>
    rw [isBuiltin]
    exact isBuiltin_of_leaves part (leaves_not part ▸ h)
  | .field .. | .custom .. => exact h _ (by simp)
termination_by sizeOf filter

theorem areBuiltin_of_leaves (parts : List Filter)
    (h : ∀ leaf ∈ parts.flatMap leaves, leaf.isBuiltin = true) : areBuiltin parts = true := by
  match parts with
  | [] => rfl
  | part :: rest =>
    rw [List.flatMap_cons] at h
    obtain ⟨hpart, hrest⟩ := List.forall_mem_append.1 h
    rw [areBuiltin, isBuiltin_of_leaves part hpart, areBuiltin_of_leaves rest hrest]
    rfl
termination_by sizeOf parts

end

mutual

/-- The values of a filter are those of its leaves, one after the other. -/
theorem bindings_eq_flatMap (filter : Filter) :
    filter.bindings scope dialect = filter.leaves.flatMap (bindings scope dialect) := by
  match filter with
  | .all parts | .any parts => rw [bindings, bindingsAll_eq_flatMap]; simp
  | .not part => rw [bindings, bindings_eq_flatMap part, leaves_not]
  | .field .. | .custom .. => simp
termination_by sizeOf filter

theorem bindingsAll_eq_flatMap (parts : List Filter) :
    bindingsAll scope dialect parts =
      (parts.flatMap leaves).flatMap (bindings scope dialect) := by
  match parts with
  | [] => rw [bindingsAll]; rfl
  | part :: rest =>
    rw [bindingsAll, bindings_eq_flatMap part, bindingsAll_eq_flatMap rest, List.flatMap_cons,
      List.flatMap_append]
termination_by sizeOf parts

end

end Filter

/-! ### Engines -/

namespace Engine

variable {engine : Engine} {entity : String} {document : Json} {predicate : Predicate}

/-- Without custom filters, a leaf that was checked is a built-in one. -/
theorem isField_of_checked (hcustom : engine.custom = .empty) {leaf : Filter}
    (h : Filter.Checked (engine.scope entity) leaf) :
    ∃ name op operand declared, leaf = .field name op operand ∧
      (engine.scope entity).field? name = some declared ∧
      (engine.scope entity).registry.isLegal declared.kind engine.adapter op = true ∧
      Operand.check engine.registry engine.limits declared op operand = .ok () := by
  cases h with
  | field _ isDeclared _ _ legal check => exact ⟨_, _, _, _, rfl, isDeclared, legal, check⟩
  | @custom name key operand _ registered =>
    have hnone : (engine.scope entity).hasCustom name key = false := by
      unfold Scope.hasCustom Engine.scope
      rw [hcustom]
      rfl
    rw [hnone] at registered
    cases registered

/-- **Only well-typed values are bound, and never `null`.** The parameters are the values of the
leaves that were read, each of them one for the kind of its field, and their integers have 64 bits
if those of the document have, as in every document of a text (`Json.fits64_of_ofText?`). -/
theorem filter_binds_typed {dialect : Dialect} (hadapter : engine.adapter = .sql dialect)
    (hassembled : engine.registry.Assembled) (hnarrow : engine.registry.OverridesNarrow)
    (hcustom : engine.custom = .empty) (h : engine.filter entity document = .ok predicate) :
    (∀ param ∈ predicate.params, param ≠ .null) ∧
    (∃ root, Filter.read (engine.scope entity) document = .ok root ∧
      predicate.params = root.leaves.flatMap (Filter.bindings (engine.scope entity) dialect) ∧
      ∀ leaf ∈ root.leaves, ∃ name op operand declared, leaf = .field name op operand ∧
        (engine.scope entity).field? name = some declared ∧
        ∀ param ∈ leaf.bindings (engine.scope entity) dialect,
          (engine.scope entity).Fits declared.kind op param) ∧
    (document.Fits64 → ∀ param ∈ predicate.params, param.Fits64) := by
  obtain ⟨root, hread, hcompile⟩ := filter_eq_ok h
  obtain ⟨condition, hlowers, -⟩ := Filter.compile_eq_ok hadapter hcompile
  have hfield := fun leaf hleaf =>
    isField_of_checked hcustom (Filter.checked_of_read hread leaf hleaf)
  have hparams : predicate.params =
      root.leaves.flatMap (Filter.bindings (engine.scope entity) dialect) := by
    rw [← Filter.bindings_eq_flatMap]
    refine hlowers.bindings (Filter.isBuiltin_of_leaves root ?_)
    intro leaf hleaf
    obtain ⟨name, op, operand, declared, rfl, -⟩ := hfield leaf hleaf
    rfl
  have hleaves : ∀ leaf ∈ root.leaves, ∃ name op operand declared, leaf = .field name op operand ∧
      (engine.scope entity).field? name = some declared ∧
      ∀ param ∈ leaf.bindings (engine.scope entity) dialect,
        (engine.scope entity).Fits declared.kind op param := by
    intro leaf hleaf
    obtain ⟨name, op, operand, declared, rfl, hdeclared, hlegal, hcheck⟩ := hfield leaf hleaf
    refine ⟨name, op, operand, declared, rfl, hdeclared, ?_⟩
    rw [hadapter] at hlegal
    rw [Filter.bindings, hdeclared]
    exact fits_of_check (hassembled.mem_baseOperators_of_isLegal hnarrow hlegal) hcheck
  refine ⟨?_, ⟨root, hread, hparams, hleaves⟩, ?_⟩
  · intro param hparam
    rw [hparams] at hparam
    obtain ⟨leaf, hleaf, hparam⟩ := List.mem_flatMap.1 hparam
    obtain ⟨name, op, operand, declared, -, -, hfits⟩ := hleaves leaf hleaf
    exact (hfits param hparam).ne_null
  · intro hdocument param hparam
    rw [hparams] at hparam
    obtain ⟨leaf, hleaf, hparam⟩ := List.mem_flatMap.1 hparam
    obtain ⟨name, op, operand, declared, rfl, hdeclared, -⟩ := hfield leaf hleaf
    rw [Filter.bindings, hdeclared] at hparam
    -- the operand of the leaf was taken from the document
    have hinside := (Filter.readFrom_of_read hread _ hleaf).operand_inside
    exact fits64_of_leafBindings (hdocument.of_inside hinside) param hparam

/-- Fields of several kinds, one of them without operators of its own, with an override that narrows
and an enum that is restricted. -/
theorem filter_binds_typed_shop :
    let entity : Entity := ⟨"Shop", [.declare "name" .string, .declare "age" .integer,
      .declare "status" (.enum "Status"), .declare "tags" .array, .declare "place" .geoPoint]⟩
    let registry : Registry :=
      Registry.overrideKind
        ⟨.ofList [("Status", ⟨["open", "shut"], some [.eq, .isIn]⟩)], []⟩
        (.sql .postgres) .integer [.between, .isNull]
    let engine : Engine := ⟨.sql .postgres, ⟨.ofList [("Shop", entity)]⟩, registry, .empty, {}⟩
    let place : Json := .object [("lat", .int 1)]
    let document : Json := .object
      [("status", .object [("_in", .array [.string "open"])]),
       ("_or", .array
        [.object [("age", .object [("_between", .array [.int 18, .int 65])])],
         .object [("_not", .object [("tags", .object [("_contains", .array [.int 1])])])]]),
       ("name", .object [("_starts_with", .string "A%")]), ("place", .object [("_eq", place)])]
    engine.registry.Assembled ∧ engine.registry.OverridesNarrow ∧ document.Fits64 ∧
      ∃ predicate, engine.filter "Shop" document = .ok predicate ∧
        predicate.params =
          [.string "open", .int 18, .int 65, .array [.int 1], .string "A!%%", place] ∧
        ∀ param ∈ predicate.params, param ≠ .null ∧ param.Fits64 := by
  intro entity registry engine place document
  have hassembled : engine.registry.Assembled := by
    have hregister : Registry.empty.registerEnum ⟨"Status", ["open", "shut"], some [.eq, .isIn]⟩ =
        .ok ⟨.ofList [("Status", ⟨["open", "shut"], some [.eq, .isIn]⟩)], []⟩ := rfl
    exact .overrideKind (.registerEnum .empty hregister)
  have hnarrow : engine.registry.OverridesNarrow :=
    (Registry.overridesNarrow_of_nil rfl).overrideKind (by decide)
  have hdocument : document.Fits64 := by
    simp [document, place, Json.IsInt64]
  obtain ⟨predicate, hfilter, hparams⟩ : ∃ predicate,
      engine.filter "Shop" document = .ok predicate ∧ predicate.params =
        [.string "open", .int 18, .int 65, .array [.int 1], .string "A!%%", place] :=
    ⟨_, rfl, rfl⟩
  obtain ⟨hnull, -, hfits⟩ := filter_binds_typed rfl hassembled hnarrow rfl hfilter
  exact ⟨hassembled, hnarrow, hdocument, predicate, hfilter, hparams,
    fun param hparam => ⟨hnull param hparam, hfits hdocument param hparam⟩⟩

end Engine

end Criteria
