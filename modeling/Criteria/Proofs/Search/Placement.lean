import Criteria.Proofs.Filter.Typing
import Criteria.Proofs.Schema.Built
import Criteria.Proofs.Search.Keys

/-!
# Keys that a client introduces

Values of the client stand in a query document below the words of the query language and the paths
of fields. But a value may be an object, and then it brings keys of its own. Operands are checked by
the kind of their field, and of the kinds only arrays, points and the generic one have objects among
their values; an operator on points takes an object, but its query is made of the coordinates and
texts inside. So a key of the client gets into a document exactly from the operand of any other
operator on a field of one of these three kinds.

* `Operand.kind_of_hasKey` — which checked operands have keys;
* `Filter.Places` — a leaf places an operand that has the key;
* `Filter.hasKey_lower_iff` — what is neither a word nor a path in the document of a filter;
* `Engine.filter_keys` — the keys in the documents of accepted filters;
* `Engine.filter_introduces_key` — one of them is no word and no path.
-/

namespace Criteria

variable {key : String}

/-! ### Operands that are objects -/

/-- Only arrays, points and the generic kind have objects among their values, or inside of them. -/
theorem Registry.OfKind.kind_of_hasKey {registry : Registry} {kind : Kind} {value : Json}
    (h : registry.OfKind kind value) (hkey : value.HasKey key) :
    kind = .array ∨ kind = .geoPoint ∨ kind = .generic := by
  cases kind with
  | array => exact .inl rfl
  | geoPoint => exact .inr (.inl rfl)
  | generic => exact .inr (.inr rfl)
  | id => rcases h with ⟨text, rfl⟩ | ⟨i, rfl⟩ <;> simp [Json.int] at hkey
  | string | integer | float | boolean =>
    obtain ⟨_, rfl⟩ := h
    simp [Json.int] at hkey
  | dateTime | date | time | enum =>
    obtain ⟨_, rfl, -⟩ := h
    simp at hkey

/-- A checked operand with a key is one on a field of these kinds, or one of an operator on
points. -/
theorem Operand.kind_of_hasKey {registry : Registry} {limits : Limits} {field : Field}
    {op : Operator} {operand : Json} (hcheck : check registry limits field op operand = .ok ())
    (hop : op.category ≠ .geo) (hkey : operand.HasKey key) :
    field.kind = .array ∨ field.kind = .geoPoint ∨ field.kind = .generic := by
  cases hshape : op.shape field.kind with
  | flag =>
    obtain ⟨positive, rfl⟩ := (check_flag hshape).1 hcheck
    simp at hkey
  | scalar =>
    cases htext : takesText op with
    | true =>
      obtain ⟨text, rfl⟩ := (check_text hshape htext).1 hcheck
      simp at hkey
    | false =>
      have hvalue := (check_scalar hshape htext).1 hcheck
      exact (ofKind_of_checkValue hvalue).kind_of_hasKey hkey
  | list =>
    obtain ⟨items, rfl, -, hitems⟩ := (check_list hshape).1 hcheck
    obtain ⟨item, hitem, hkey⟩ := Json.hasKey_array.1 hkey
    exact (ofKind_of_checkItem (hitems item hitem)).kind_of_hasKey hkey
  | range =>
    obtain ⟨low, high, rfl, hlow, hhigh⟩ := (check_range hshape).1 hcheck
    rw [Json.hasKey_array] at hkey
    simp only [List.mem_cons, List.not_mem_nil, or_false, exists_eq_or_imp,
      exists_eq_left] at hkey
    rcases hkey with hkey | hkey
    · exact (ofKind_of_checkValue hlow).kind_of_hasKey hkey
    · exact (ofKind_of_checkValue hhigh).kind_of_hasKey hkey
  | structured =>
    -- this shape is for operators on points alone
    refine absurd ?_ hop
    cases op <;> simp [Operator.shape, Operator.category] at hshape ⊢
    split at hshape <;> cases hshape

/-! ### Filters -/

/-- A key is the native reference of a declared field. -/
def Scope.IsReference (scope : Scope) (key : String) : Prop :=
  ∃ name declared, scope.field? name = some declared ∧ key = declared.reference

/-- A key is no reference if no field of the entity has it. -/
theorem Scope.not_isReference {scope : Scope} {entity : Entity}
    (hentity : scope.schema.entity? scope.entity = some entity)
    (hfields : ∀ field ∈ entity.fields, key ≠ field.reference) : ¬ scope.IsReference key := by
  rintro ⟨name, declared, hdeclared, hkey⟩
  rw [field?, Schema.field?, hentity] at hdeclared
  exact hfields declared (Entity.mem_of_field? hdeclared).1 hkey

namespace Filter

open Search (Query keywords)

/-- A leaf has an operand with the key, on a field of a kind that has objects among its values, and
its operator is none on points. -/
inductive Places (scope : Scope) (key : String) : Filter → Prop
  | field {name : String} {op : Operator} {operand : Json} {declared : Field}
      (isDeclared : scope.field? name = some declared)
      (hasObjects : declared.kind = .array ∨ declared.kind = .geoPoint ∨ declared.kind = .generic)
      (plain : op.category ≠ .geo) (hasKey : operand.HasKey key) :
    Places scope key (.field name op operand)

variable {scope : Scope}

/-- The document of a checked leaf has another key exactly if the leaf places it. -/
theorem hasKey_compileField_iff (hadapter : scope.adapter = .search) (hkey : key ∉ keywords)
    (hpath : ¬ scope.IsReference key) {bound : Nat} {name : String} {op : Operator}
    {operand : Json} {query : Query} {values : List Json}
    (hchecked : Checked scope (.field name op operand))
    (h : compileField scope bound name op operand = .ok (.document query, values)) :
    query.toJson.HasKey key ↔ Places scope key (.field name op operand) := by
  cases hchecked with
  | @field _ _ _ declared _ hdeclared _ _ hlegal hcheck =>
    rw [compileField, hdeclared] at h
    dsimp only at h
    rw [if_pos hlegal, hadapter] at h
    obtain ⟨found, hleaf, h⟩ := bind_eq_ok.1 h
    obtain ⟨hquery, -⟩ := Prod.mk.inj (Except.ok.inj h)
    obtain rfl := Fragment.document.inj hquery
    have hreference : key ≠ declared.reference := fun heq => hpath ⟨name, declared, hdeclared, heq⟩
    rw [Search.hasKey_leaf_iff hcheck hleaf hkey hreference]
    constructor
    · rintro ⟨hop, hoperand⟩
      exact .field hdeclared (Operand.kind_of_hasKey hcheck hop hoperand) hop hoperand
    · rintro ⟨-, -, hop, hoperand⟩
      exact ⟨hop, hoperand⟩

mutual

/-- **The document of a filter has another key exactly if a leaf places it.** -/
theorem hasKey_lower_iff (hadapter : scope.adapter = .search) (hkey : key ∉ keywords)
    (hpath : ¬ scope.IsReference key) (filter : Filter)
    (hleaves : ∀ leaf ∈ filter.leaves, leaf.isBuiltin = true ∧ Checked scope leaf) {bound : Nat}
    {query : Query} {values : List Json}
    (h : lower scope bound filter = .ok (.document query, values)) :
    query.toJson.HasKey key ↔ ∃ leaf ∈ filter.leaves, Places scope key leaf := by
  cases filter with
  | all parts =>
    rw [leaves_all] at hleaves ⊢
    obtain ⟨fragments, hparts, hwhole⟩ := lower_all_eq_ok h
    obtain ⟨queries, rfl, hiff⟩ := hasKey_lowerAll_iff hadapter hkey hpath parts hleaves hparts
    rw [hadapter, Fragment.all, mapM_expectQuery] at hwhole
    obtain rfl := Fragment.document.inj (Except.ok.inj hwhole)
    rw [Query.hasKey_allOf_iff hkey, hiff]
  | any parts =>
    rw [leaves_any] at hleaves ⊢
    obtain ⟨fragments, hparts, hwhole⟩ := lower_any_eq_ok h
    obtain ⟨queries, rfl, hiff⟩ := hasKey_lowerAll_iff hadapter hkey hpath parts hleaves hparts
    rw [hadapter, Fragment.any, mapM_expectQuery] at hwhole
    obtain rfl := Fragment.document.inj (Except.ok.inj hwhole)
    rw [Query.hasKey_anyOf_iff hkey, hiff]
  | not part =>
    rw [leaves_not] at hleaves ⊢
    obtain ⟨inner, hpart, hwhole⟩ := lower_not_eq_ok h
    obtain ⟨query, rfl⟩ := exists_query_of_lower hadapter hpart
    rw [hadapter] at hwhole
    obtain rfl := Fragment.document.inj (Except.ok.inj hwhole)
    rw [Query.hasKey_negation_iff hkey]
    exact hasKey_lower_iff hadapter hkey hpath part hleaves hpart
  | field name op operand =>
    rw [leaves_field] at hleaves ⊢
    have hchecked := (hleaves _ List.mem_cons_self).2
    rw [lower] at h
    simpa using hasKey_compileField_iff hadapter hkey hpath hchecked h
  | custom name key operand =>
    rw [leaves_custom] at hleaves
    obtain ⟨hbuiltin, -⟩ := hleaves _ List.mem_cons_self
    rw [isBuiltin] at hbuiltin
    cases hbuiltin
termination_by sizeOf filter

theorem hasKey_lowerAll_iff (hadapter : scope.adapter = .search) (hkey : key ∉ keywords)
    (hpath : ¬ scope.IsReference key) (parts : List Filter)
    (hleaves : ∀ leaf ∈ parts.flatMap leaves, leaf.isBuiltin = true ∧ Checked scope leaf)
    {bound : Nat} {fragments : List Fragment} {values : List Json}
    (h : lowerAll scope bound parts = .ok (fragments, values)) :
    ∃ queries : List Query, fragments = queries.map .document ∧
      ((∃ query ∈ queries, query.toJson.HasKey key) ↔
        ∃ leaf ∈ parts.flatMap leaves, Places scope key leaf) := by
  cases parts with
  | nil =>
    obtain ⟨rfl, -⟩ := lowerAll_nil_eq_ok h
    exact ⟨[], rfl, by simp⟩
  | cons part rest =>
    rw [List.flatMap_cons] at hleaves ⊢
    obtain ⟨hpartLeaves, hrestLeaves⟩ := List.forall_mem_append.1 hleaves
    obtain ⟨first, _, others, _, hpart, hrest, rfl, -⟩ := lowerAll_cons_eq_ok h
    obtain ⟨query, rfl⟩ := exists_query_of_lower hadapter hpart
    have hfirst := hasKey_lower_iff hadapter hkey hpath part hpartLeaves hpart
    obtain ⟨queries, rfl, hiff⟩ := hasKey_lowerAll_iff hadapter hkey hpath rest hrestLeaves hrest
    refine ⟨query :: queries, rfl, ?_⟩
    simp only [List.mem_cons, List.mem_append, or_and_right, exists_or, exists_eq_left]
    rw [hfirst, hiff]
termination_by sizeOf parts

end

end Filter

namespace Engine

open Criteria.Filter (Places)
open Criteria.Search (keywords)

variable {engine : Engine} {entity : String} {document : Json} {predicate : Predicate}

/-- **The keys of a query document.** Without custom filters, a key is a word of the query
language or the path of a declared field, unless a leaf places an operand that has it; and each key
of such an operand, which is a part of the client's document, is in the query document. -/
theorem filter_keys (hadapter : engine.adapter = .search) (hcustom : engine.custom = .empty)
    (h : engine.filter entity document = .ok predicate) :
    ∃ root compiled, Filter.read (engine.scope entity) document = .ok root ∧
      predicate.document? = some compiled ∧
      (∀ key, compiled.HasKey key → key ∈ keywords ∨ (engine.scope entity).IsReference key ∨
        ∃ leaf ∈ root.leaves, Places (engine.scope entity) key leaf) ∧
      ∀ leaf ∈ root.leaves, ∀ key, Places (engine.scope entity) key leaf →
        document.HasKey key ∧
          (key ∉ keywords → ¬ (engine.scope entity).IsReference key → compiled.HasKey key) := by
  obtain ⟨root, hread, hcompile⟩ := filter_eq_ok h
  obtain ⟨⟨fragment, values⟩, hlower, hpredicate⟩ := bind_eq_ok.1 hcompile
  obtain ⟨query, rfl⟩ := Filter.exists_query_of_lower hadapter hlower
  obtain rfl := Except.ok.inj hpredicate
  have hchecked := Filter.checked_of_read hread
  have hleaves : ∀ leaf ∈ root.leaves,
      leaf.isBuiltin = true ∧ Filter.Checked (engine.scope entity) leaf := by
    intro leaf hleaf
    obtain ⟨name, op, operand, declared, rfl, -⟩ :=
      isField_of_checked hcustom (hchecked leaf hleaf)
    exact ⟨rfl, hchecked _ hleaf⟩
  refine ⟨root, query.toJson, hread, rfl, fun key hkey => ?_, fun leaf hleaf key hplaces => ?_⟩
  · by_cases hword : key ∈ keywords
    · exact .inl hword
    by_cases hreference : (engine.scope entity).IsReference key
    · exact .inr (.inl hreference)
    exact .inr (.inr ((Filter.hasKey_lower_iff hadapter hword hreference root hleaves hlower).1 hkey))
  · constructor
    · -- the operand of the leaf was taken from the document
      cases hplaces with
      | field _ _ _ hasKey =>
        exact hasKey.of_inside (Filter.readFrom_of_read hread _ hleaf).operand_inside
    · intro hword hreference
      exact (Filter.hasKey_lower_iff hadapter hword hreference root hleaves hlower).2
        ⟨leaf, hleaf, hplaces⟩

/-- Leaves of all sorts, one of which places an object inside a list. The members of a point that
are no part of what it says are dropped. -/
theorem filter_keys_mixed :
    let entity : Entity := ⟨"Shop", [⟨"name", "shop.name", .string, true, true⟩,
      .declare "tags" .array, .declare "place" .geoPoint]⟩
    let engine : Engine := ⟨.search, ⟨.ofList [("Shop", entity)]⟩, .empty, .empty, {}⟩
    let tag : Json := .object [("color", .string "red")]
    let near : Json := .object
      [("lat", .int 1), ("lon", .int 2), ("pivot", .string "1km"), ("note", .null)]
    let document : Json := .object
      [("_or", .array [.object [("name", .object [("_starts_with", .string "A*")])],
          .object [("_not", .object [("tags", .object [("_contains", .array [tag])])])]]),
       ("place", .object [("_near", near)])]
    ∃ predicate compiled, engine.filter "Shop" document = .ok predicate ∧
      predicate.document? = some compiled ∧ compiled.HasKey "color" ∧
      ¬ compiled.HasKey "note" := by
  intro entity engine tag near document
  have hread : Filter.read (engine.scope "Shop") document = .ok
      (.all [.any [.field "name" .startsWith (.string "A*"),
          .not (.field "tags" .contains (.array [tag]))], .field "place" .near near]) := rfl
  obtain ⟨predicate, hfilter⟩ : ∃ predicate, engine.filter "Shop" document = .ok predicate :=
    ⟨_, rfl⟩
  have hentity : (engine.scope "Shop").schema.entity? "Shop" = some entity := rfl
  obtain ⟨root, compiled, hroot, hcompiled, hkeys, hplaced⟩ := filter_keys rfl rfl hfilter
  obtain rfl := Except.ok.inj (hread.symm.trans hroot)
  refine ⟨predicate, compiled, hfilter, hcompiled, ?_, fun hnote => ?_⟩
  · have hplaces : Places (engine.scope "Shop") "color"
        (.field "tags" .contains (.array [tag])) :=
      .field rfl (.inl rfl) (by decide) (by simp [tag])
    exact (hplaced _ (by simp) "color" hplaces).2 (by decide)
      (Scope.not_isReference hentity (by decide))
  · rcases hkeys "note" hnote with hword | hreference | ⟨leaf, hleaf, hplaces⟩
    · exact absurd hword (by decide)
    · exact Scope.not_isReference hentity (by decide) hreference
    · simp only [Filter.leaves_all, Filter.leaves_any, Filter.leaves_not, Filter.leaves_field,
        List.flatMap_cons, List.flatMap_nil, List.append_nil, List.cons_append, List.nil_append,
        List.mem_cons, List.not_mem_nil, or_false] at hleaf
      rcases hleaf with rfl | rfl | rfl
      · obtain ⟨-, -, -, hkey⟩ := hplaces
        simp at hkey
      · obtain ⟨-, -, -, hkey⟩ := hplaces
        simp [tag] at hkey
      · -- the point is an operand with this key, but its operator is one on points
        obtain ⟨-, -, hplain, -⟩ := hplaces
        exact hplain rfl

/-- **A client introduces a key.** The schema accepts the field and the engine the document; the
query document has a key that is no word of the query language and no path. -/
theorem filter_introduces_key :
    let field : Field := .declare "meta" .generic
    let operand : Json := .object [("value", .string "x"), ("boost", .int 100)]
    let document : Json := .single "meta" (.single "_eq" operand)
    ∃ schema, Schema.build [⟨"Doc", [field]⟩] = .ok schema ∧
      let engine : Engine := ⟨.search, schema, .empty, .empty, {}⟩
      ∃ predicate compiled, engine.filter "Doc" document = .ok predicate ∧
        predicate.document? = some compiled ∧
        compiled = .single "term" (.single "meta" operand) ∧
        compiled.HasKey "boost" ∧ "boost" ∉ keywords ∧
        ¬ (engine.scope "Doc").IsReference "boost" := by
  have hbuild : Schema.build [⟨"Doc", [.declare "meta" .generic]⟩] =
      .ok ⟨.ofList [("Doc", ⟨"Doc", [.declare "meta" .generic]⟩)]⟩ := rfl
  intro field operand document
  have hkey : (Json.single "term" (.single "meta" operand)).HasKey "boost" := by simp [operand]
  exact ⟨_, hbuild, _, _, rfl, rfl, rfl, hkey, by decide,
    Scope.not_isReference rfl (by decide)⟩

end Engine

end Criteria
