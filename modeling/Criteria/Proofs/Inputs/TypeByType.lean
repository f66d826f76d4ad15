import Criteria.Proofs.Inputs.Generated

/-!
# Inputs depend on a set of types

`Inputs.generate` looks at all types at once. The same inputs can be made type by type
(`Inputs.typeByType`): each type with an entity adds its filter input and its order input, and for
each of its fields the operator input of the kind, unless one of that name is there already. Then
the first field of a name decides what stands under the name, and later ones are not looked at. That
this does not depend on the order of the types is not obvious: fields of several entities share an
operator input, and a field of one kind may be treated as one of another.

It does not, because whatever brings in a name brings in the same thing (`Consistent`): the name of
an operator input determines the kind, in a schema that was built. So what stands under a name can
be said without an order, by the types that bring it in (`Collects`), and this is said of either way
to make the inputs. It determines the catalogs, and what it says of the union of two lists of types
is what it says of one or of the other.

* `Catalog.Fits.adds_insertNews` — adding entries that agree loses none, though none is replaced;
* `Catalog.Collects` — a catalog holds what types bring in;
* `Holds.addType`, `holds_typeByType` — what is held after one more type, and after all;
* `holds_generate` — the same is held if all types are looked at once;
* `generate_depends_on_set` — the order of types, repetitions and unknown names do not matter, and
  the inputs of a union are the union of the inputs.
-/

namespace Criteria

namespace Catalog

variable {α : Type} {entries : List (String × α)} {c d result : Catalog α} {name key : String}
  {value : α}

/-! ### Adding entries that agree -/

/-- Adds an entry unless there is one under its name. -/
def insertNew (c : Catalog α) (name : String) (value : α) : Catalog α :=
  if c.contains name then c else c.insert name value

/-- Entries have one value for each name, which is that of the catalog where it has the name. -/
def Fits (entries : List (String × α)) (c : Catalog α) : Prop :=
  ∀ name value value', (c.get? name = some value ∨ (name, value) ∈ entries) →
    (c.get? name = some value' ∨ (name, value') ∈ entries) → value = value'

/-- One catalog has what another one has, and some entries. -/
def Adds (entries : List (String × α)) (c result : Catalog α) : Prop :=
  ∀ name value, result.get? name = some value ↔ c.get? name = some value ∨ (name, value) ∈ entries

theorem Adds.nil : Adds [] c c := by
  intro name value
  simp

/-- An entry that fits makes no difference to what is there, even if it replaces it. -/
theorem Fits.adds_insert (hfits : Fits [(key, value)] c) :
    Adds [(key, value)] c (c.insert key value) := by
  intro name found
  rw [get?_insert, List.mem_singleton, Prod.mk.injEq]
  by_cases hname : name = key
  · rw [if_pos hname, Option.some.injEq]
    constructor
    · rintro rfl
      exact .inr ⟨hname, rfl⟩
    · rintro (hfound | ⟨-, rfl⟩)
      · exact hfits name value found (.inr (by rw [hname, List.mem_singleton])) (.inl hfound)
      · rfl
  · rw [if_neg hname]
    constructor
    · exact .inl
    · rintro (hfound | ⟨hsame, -⟩)
      · exact hfound
      · exact absurd hsame hname

/-- An entry that fits may be added whether or not one of its name is kept. -/
theorem Fits.insertNew_eq (hfits : Fits [(key, value)] c) :
    c.insertNew key value = c.insert key value := by
  unfold insertNew
  by_cases htaken : c.contains key = true
  · rw [if_pos htaken]
    obtain ⟨found, hfound⟩ := contains_iff.1 htaken
    have hvalue : found = value := hfits key found value (.inl hfound) (.inr (by simp))
    refine ext_get? fun name => ?_
    rw [get?_insert]
    by_cases hname : name = key
    · rw [if_pos hname, hname, hfound, hvalue]
    · rw [if_neg hname]
  · rw [if_neg htaken]

/-- **Entries that fit are all there after they were added**, although each is left out if one of
its name is there already. -/
theorem Fits.adds_insertNews : ∀ {entries : List (String × α)} {c : Catalog α}, Fits entries c →
    Adds entries c (entries.foldl (fun c e => c.insertNew e.1 e.2) c) := by
  intro entries
  induction entries with
  | nil =>
    intro c _
    exact .nil
  | cons entry rest ih =>
    intro c hfits
    obtain ⟨key, value⟩ := entry
    have hfirst : Fits [(key, value)] c := by
      intro name found found' hfound hfound'
      have hlater : ∀ {found}, c.get? name = some found ∨ (name, found) ∈ [(key, value)] →
          c.get? name = some found ∨ (name, found) ∈ (key, value) :: rest := fun h =>
        h.imp_right fun hmem => List.mem_cons.2 (.inl (List.mem_singleton.1 hmem))
      exact hfits name found found' (hlater hfound) (hlater hfound')
    have hadds : Adds [(key, value)] c (c.insertNew key value) := by
      rw [hfirst.insertNew_eq]
      exact hfirst.adds_insert
    -- what was there and the first entry, and then the rest, is what was there and all entries
    have hsplit : ∀ name found,
        ((c.insertNew key value).get? name = some found ∨ (name, found) ∈ rest) ↔
          c.get? name = some found ∨ (name, found) ∈ (key, value) :: rest := by
      intro name found
      rw [hadds, List.mem_singleton, List.mem_cons, or_assoc]
    have hrest : Fits rest (c.insertNew key value) := by
      intro name found found' hfound hfound'
      exact hfits name found found' ((hsplit name found).1 hfound) ((hsplit name found').1 hfound')
    intro name found
    rw [List.foldl_cons, ih hrest, hsplit]

/-- Entries that fit are there after they were added to an empty catalog, the last of a name
winning. -/
theorem Fits.adds_ofList (hfits : Fits entries .empty) : Adds entries .empty (ofList entries) := by
  have hagree : ∀ {name value}, (name, value) ∈ entries →
      ∀ other, (name, other) ∈ entries → other = value := fun hvalue other hother =>
    hfits _ other _ (.inr hother) (.inr hvalue)
  intro name value
  constructor
  · intro h
    exact .inr (mem_of_get?_ofList h)
  · rintro (hempty | hmem)
    · cases hempty
    · exact get?_ofList hmem (hagree hmem)

/-! ### What types bring in -/

variable {brings : String → String → α → Prop} {types others : List String} {type : String}

/-- No two types bring in different values under one name. -/
def Consistent (brings : String → String → α → Prop) : Prop :=
  ∀ type other name value value', brings type name value → brings other name value' →
    value = value'

/-- A catalog holds what some types bring in, and nothing else. -/
def Collects (brings : String → String → α → Prop) (types : List String) (c : Catalog α) : Prop :=
  ∀ name value, c.get? name = some value ↔ ∃ type ∈ types, brings type name value

/-- One catalog holds what either of two others holds, and they agree wherever both hold
something. -/
structure IsUnion (first second result : Catalog α) : Prop where
  /-- What is held by one of them. -/
  get?_iff : ∀ name value,
    result.get? name = some value ↔ first.get? name = some value ∨ second.get? name = some value
  /-- What is held by both. -/
  agree : ∀ name value value',
    first.get? name = some value → second.get? name = some value' → value = value'

namespace Collects

theorem nil : Collects brings [] (.empty : Catalog α) := by
  intro name value
  simp

/-- What types bring in determines the catalog. -/
theorem unique (hc : Collects brings types c) (hd : Collects brings types d) : c = d := by
  refine ext_get? fun name => Option.ext fun value => ?_
  rw [hc, hd]

/-- What a type brings in fits. -/
theorem fits (hconsistent : Consistent brings) (hc : Collects brings types c)
    (hentries : ∀ name value, (name, value) ∈ entries → ∃ type, brings type name value) :
    Fits entries c := by
  have hbrought : ∀ {name value}, c.get? name = some value ∨ (name, value) ∈ entries →
      ∃ type, brings type name value := by
    rintro name value (hfound | hmem)
    · obtain ⟨type, -, hbrings⟩ := (hc name value).1 hfound
      exact ⟨type, hbrings⟩
    · exact hentries name value hmem
  intro name value value' hvalue hvalue'
  obtain ⟨type, hbrings⟩ := hbrought hvalue
  obtain ⟨other, hbrings'⟩ := hbrought hvalue'
  exact hconsistent type other name value value' hbrings hbrings'

/-- After what one more type brings in was added, a catalog holds what it did and that. -/
theorem adds (hc : Collects brings types c) (hadds : Adds entries c result)
    (hentries : ∀ name value, brings type name value ↔ (name, value) ∈ entries) :
    Collects brings (types ++ [type]) result := by
  intro name value
  rw [hadds, hc, ← hentries]
  simp only [List.mem_append, List.mem_singleton, or_and_right, exists_or, exists_eq_left]

/-- It depends only on the types that bring in something. -/
theorem congr (hc : Collects brings types c)
    (hsame : ∀ type name value, brings type name value → (type ∈ types ↔ type ∈ others)) :
    Collects brings others c := by
  intro name value
  rw [hc]
  refine exists_congr fun type => ?_
  constructor
  · rintro ⟨htype, hbrings⟩
    exact ⟨(hsame type name value hbrings).1 htype, hbrings⟩
  · rintro ⟨htype, hbrings⟩
    exact ⟨(hsame type name value hbrings).2 htype, hbrings⟩

/-- What a union of types brings in is the union of what they bring in. -/
theorem isUnion {all : List String} (hc : Collects brings types c) (hd : Collects brings others d)
    (hresult : Collects brings all result)
    (hunion : ∀ type name value, brings type name value →
      (type ∈ all ↔ type ∈ types ∨ type ∈ others)) :
    IsUnion c d result := by
  have hiff : ∀ name value,
      result.get? name = some value ↔ c.get? name = some value ∨ d.get? name = some value := by
    intro name value
    rw [hresult, hc, hd]
    constructor
    · rintro ⟨type, htype, hbrings⟩
      rcases (hunion type name value hbrings).1 htype with hfirst | hsecond
      · exact .inl ⟨type, hfirst, hbrings⟩
      · exact .inr ⟨type, hsecond, hbrings⟩
    · rintro (⟨type, htype, hbrings⟩ | ⟨type, htype, hbrings⟩)
      · exact ⟨type, (hunion type name value hbrings).2 (.inl htype), hbrings⟩
      · exact ⟨type, (hunion type name value hbrings).2 (.inr htype), hbrings⟩
  refine ⟨hiff, fun name value value' hfirst hsecond => ?_⟩
  -- both are what the result has under the name
  have hvalue : result.get? name = some value := (hiff name value).2 (.inl hfirst)
  have hvalue' : result.get? name = some value' := (hiff name value').2 (.inr hsecond)
  exact Option.some.inj (hvalue.symm.trans hvalue')

/-- If some types bring in the entries of a list, and no others, the catalog of the list holds what
they bring in. -/
theorem ofList (hconsistent : Consistent brings)
    (hentries : ∀ name value, (name, value) ∈ entries ↔ ∃ type ∈ types, brings type name value) :
    Collects brings types (.ofList entries) := by
  have hfits : Fits entries .empty := by
    refine fits hconsistent nil fun name value hmem => ?_
    obtain ⟨type, -, hbrings⟩ := (hentries name value).1 hmem
    exact ⟨type, hbrings⟩
  intro name value
  rw [hfits.adds_ofList, ← hentries]
  exact or_iff_right nofun

end Collects

end Catalog

namespace Inputs

variable {engine : Engine} {types others : List String} {type name : String} {entity : Entity}
  {inputs : Inputs}

/-! ### Type by type -/

/-- The operator inputs of the fields of an entity, each under its name. -/
def operatorEntries (engine : Engine) (entity : Entity) : List (String × OperatorInput) :=
  (kindsOf engine.registry engine.adapter entity).map fun kind =>
    (operatorInputName kind, operatorInput engine.registry engine.adapter kind)

/-- The filter input of an entity under its name. -/
def filterEntry (engine : Engine) (entity : Entity) : String × FilterInput :=
  (entity.name ++ "Filter", filterInput engine.registry engine.adapter engine.custom entity)

/-- The order input of an entity under its name. -/
def orderEntry (entity : Entity) : String × OrderInput :=
  (entity.name ++ "Order", orderInput entity)

/-- The inputs of no types. -/
def start (adapter : Adapter) : Inputs := ⟨adapter, .empty, .empty, .empty⟩

/-- The inputs after one more type. Of the operator inputs of one name the first is kept; a type
without an entity adds nothing. -/
def addType (engine : Engine) (inputs : Inputs) (type : String) : Inputs :=
  match engine.schema.entity? type with
  | none => inputs
  | some entity =>
    { adapter := inputs.adapter
      operatorInputs := (operatorEntries engine entity).foldl (fun c e => c.insertNew e.1 e.2)
        inputs.operatorInputs
      filterInputs :=
        inputs.filterInputs.insert (filterEntry engine entity).1 (filterEntry engine entity).2
      orderInputs := inputs.orderInputs.insert (orderEntry entity).1 (orderEntry entity).2 }

/-- The inputs of some types, made type by type. -/
def typeByType (engine : Engine) (types : List String) : Inputs :=
  types.foldl (addType engine) (start engine.adapter)

/-! ### What is held -/

/-- A type brings in what is made of its entity. -/
def Brings {α : Type} (engine : Engine) (make : Entity → List (String × α)) (type name : String)
    (value : α) : Prop :=
  ∃ entity, engine.schema.entity? type = some entity ∧ (name, value) ∈ make entity

/-- Inputs hold what some types bring in. -/
structure Holds (engine : Engine) (types : List String) (inputs : Inputs) : Prop where
  /-- They are for the adapter of the engine. -/
  adapter : inputs.adapter = engine.adapter
  /-- The operator inputs of the fields. -/
  operators : Catalog.Collects (Brings engine (operatorEntries engine)) types inputs.operatorInputs
  /-- The filter inputs of the entities. -/
  filters :
    Catalog.Collects (Brings engine fun entity => [filterEntry engine entity]) types
      inputs.filterInputs
  /-- The order inputs of the entities. -/
  orders :
    Catalog.Collects (Brings engine fun entity => [orderEntry entity]) types inputs.orderInputs

theorem Brings.contains {α : Type} {make : Entity → List (String × α)} {value : α}
    (h : Brings engine make type name value) : engine.schema.contains type = true := by
  obtain ⟨entity, hentity, -⟩ := h
  exact Catalog.contains_iff.2 ⟨entity, hentity⟩

theorem brings_iff {α : Type} {make : Entity → List (String × α)} {value : α}
    (hentity : engine.schema.entity? type = some entity) :
    Brings engine make type name value ↔ (name, value) ∈ make entity := by
  constructor
  · rintro ⟨found, hfound, hmem⟩
    obtain rfl := Option.some.inj (hfound.symm.trans hentity)
    exact hmem
  · intro hmem
    exact ⟨entity, hentity, hmem⟩

theorem Holds.unique {other : Inputs} (h : Holds engine types inputs)
    (hother : Holds engine types other) : inputs = other := by
  have hadapter : inputs.adapter = other.adapter := h.adapter.trans hother.adapter.symm
  have hoperators := h.operators.unique hother.operators
  have hfilters := h.filters.unique hother.filters
  have horders := h.orders.unique hother.orders
  cases inputs
  cases other
  simp only at hadapter hoperators hfilters horders
  rw [hadapter, hoperators, hfilters, horders]

theorem Holds.congr (h : Holds engine types inputs)
    (hsame : ∀ type, engine.schema.contains type = true → (type ∈ types ↔ type ∈ others)) :
    Holds engine others inputs where
  adapter := h.adapter
  operators := h.operators.congr fun type _ _ hbrings => hsame type hbrings.contains
  filters := h.filters.congr fun type _ _ hbrings => hsame type hbrings.contains
  orders := h.orders.congr fun type _ _ hbrings => hsame type hbrings.contains

/-! ### Each name stands for one thing -/

section

variable (hproper : engine.schema.IsProper)

include hproper

/-- An input name of an entity with an ending stands for one entity. -/
theorem consistent_ending {α : Type} (ending : String) (make : Entity → α) :
    Catalog.Consistent (Brings engine fun entity => [(entity.name ++ ending, make entity)]) := by
  rintro type other name value value' ⟨entity, hentity, hmem⟩ ⟨found, hfound, hmem'⟩
  obtain ⟨hname, rfl⟩ := Prod.mk.inj (List.mem_singleton.1 hmem)
  obtain ⟨hname', rfl⟩ := Prod.mk.inj (List.mem_singleton.1 hmem')
  have hsame : entity.name = found.name := append_right_inj (hname.symm.trans hname')
  obtain ⟨rfl, -⟩ := hproper type entity hentity
  obtain ⟨rfl, -⟩ := hproper other found hfound
  rw [hsame, hfound] at hentity
  rw [Option.some.inj hentity]

/-- **The name of an operator input stands for one kind**, whatever fields bring it in. -/
theorem consistent_operators : Catalog.Consistent (Brings engine (operatorEntries engine)) := by
  rintro type other name input input' ⟨entity, hentity, hmem⟩ ⟨found, hfound, hmem'⟩
  obtain ⟨kind, hkind, heq⟩ := List.mem_map.1 hmem
  obtain ⟨kind', hkind', heq'⟩ := List.mem_map.1 hmem'
  obtain ⟨hname, rfl⟩ := Prod.mk.inj heq
  obtain ⟨hname', rfl⟩ := Prod.mk.inj heq'
  have hfree : IsFree kind := isFree_of_mem_kindsOf (hproper type entity hentity).2 hkind
  have hfree' : IsFree kind' := isFree_of_mem_kindsOf (hproper other found hfound).2 hkind'
  rw [operatorInputName_inj hfree hfree' (hname.trans hname'.symm)]

/-! ### Both ways hold the same -/

/-- **One more type adds what it brings in.** -/
theorem Holds.addType (h : Holds engine types inputs) (type : String) :
    Holds engine (types ++ [type]) (addType engine inputs type) := by
  unfold Inputs.addType
  cases hentity : engine.schema.entity? type with
  | none =>
    -- nothing is brought in
    have hnone : ∀ {α : Type} {make : Entity → List (String × α)} (name : String) (value : α),
        Brings engine make type name value ↔ (name, value) ∈ ([] : List (String × α)) := by
      intro α make name value
      refine iff_of_false ?_ List.not_mem_nil
      rintro ⟨entity, hfound, -⟩
      rw [hentity] at hfound
      cases hfound
    exact ⟨h.adapter, h.operators.adds .nil hnone, h.filters.adds .nil hnone,
      h.orders.adds .nil hnone⟩
  | some entity =>
    have hbrings : ∀ {α : Type} {make : Entity → List (String × α)} (name : String) (value : α),
        Brings engine make type name value ↔ (name, value) ∈ make entity := fun _ _ =>
      brings_iff hentity
    have hfits : ∀ {α : Type} {make : Entity → List (String × α)} {c : Catalog α},
        Catalog.Consistent (Brings engine make) → Catalog.Collects (Brings engine make) types c →
          Catalog.Fits (make entity) c := by
      intro α make c hconsistent hc
      refine hc.fits hconsistent fun name value hmem => ⟨type, ?_⟩
      exact (hbrings name value).2 hmem
    refine ⟨h.adapter, ?_, ?_, ?_⟩
    · have hoperators := hfits (consistent_operators hproper) h.operators
      exact h.operators.adds hoperators.adds_insertNews hbrings
    · have hfilters := hfits (consistent_ending hproper "Filter" _) h.filters
      exact h.filters.adds hfilters.adds_insert hbrings
    · have horders := hfits (consistent_ending hproper "Order" orderInput) h.orders
      exact h.orders.adds horders.adds_insert hbrings

/-- The inputs that are made type by type hold what the types bring in. -/
theorem holds_typeByType (types : List String) : Holds engine types (typeByType engine types) := by
  -- the induction is on the types that are left, with any inputs that hold what was before
  have hrest : ∀ rest before inputs, Holds engine before inputs →
      Holds engine (before ++ rest) (rest.foldl (addType engine) inputs) := by
    intro rest
    induction rest with
    | nil =>
      intro before inputs h
      rw [List.append_nil]
      exact h
    | cons type rest ih =>
      intro before inputs h
      rw [List.append_cons, List.foldl_cons]
      exact ih _ _ (h.addType hproper type)
  exact hrest types [] (start engine.adapter) ⟨rfl, .nil, .nil, .nil⟩

/-- What is made of the entities among some types is what the types bring in. -/
theorem mem_flatMap_iff_brings {α : Type} {make : Entity → List (String × α)} {value : α} :
    (name, value) ∈ (entitiesAmong engine.schema types).flatMap make ↔
      ∃ type ∈ types, Brings engine make type name value := by
  rw [List.mem_flatMap]
  constructor
  · rintro ⟨entity, hamong, hmem⟩
    obtain ⟨⟨stands, hentity⟩, htype⟩ := mem_entitiesAmong.1 hamong
    obtain ⟨rfl, -⟩ := hproper stands entity hentity
    exact ⟨entity.name, htype, entity, hentity, hmem⟩
  · rintro ⟨type, htype, entity, hentity, hmem⟩
    obtain ⟨rfl, -⟩ := hproper type entity hentity
    exact ⟨entity, mem_entitiesAmong.2 ⟨⟨_, hentity⟩, htype⟩, hmem⟩

/-- The inputs that are generated at once hold what the types bring in. -/
theorem holds_generate (types : List String) : Holds engine types (generate engine types) := by
  refine ⟨rfl, ?_, ?_, ?_⟩
  · refine .ofList (consistent_operators hproper) fun name value => ?_
    rw [List.map_flatMap]
    exact mem_flatMap_iff_brings hproper
  · refine .ofList (consistent_ending hproper "Filter" _) fun name value => ?_
    rw [List.map_eq_flatMap]
    exact mem_flatMap_iff_brings hproper
  · refine .ofList (consistent_ending hproper "Order" orderInput) fun name value => ?_
    rw [List.map_eq_flatMap]
    exact mem_flatMap_iff_brings hproper

end

/-! ### Sets of types -/

/-- Inputs hold what either of two others holds. -/
structure IsUnion (first second result : Inputs) : Prop where
  /-- All are for one adapter. -/
  adapter : result.adapter = first.adapter ∧ result.adapter = second.adapter
  /-- The operator inputs. -/
  operators : first.operatorInputs.IsUnion second.operatorInputs result.operatorInputs
  /-- The filter inputs. -/
  filters : first.filterInputs.IsUnion second.filterInputs result.filterInputs
  /-- The order inputs. -/
  orders : first.orderInputs.IsUnion second.orderInputs result.orderInputs

/-- **Inputs depend on the set of the declared types alone.** Lists of types with the same entities
have the same inputs, in whatever order and however often these are listed and whatever unknown
names are listed with them. The inputs of a union are the union of the inputs, which agree wherever
they overlap. And it makes no difference that inputs are made type by type, where an operator input
is that of the first field that brings in its name. -/
theorem generate_depends_on_set {entities : List Entity}
    (hbuild : Schema.build entities = .ok engine.schema) :
    (∀ types others : List String,
      (∀ type, engine.schema.contains type = true → (type ∈ types ↔ type ∈ others)) →
        generate engine types = generate engine others) ∧
    (∀ types others all : List String,
      (∀ type, engine.schema.contains type = true →
        (type ∈ all ↔ type ∈ types ∨ type ∈ others)) →
        IsUnion (generate engine types) (generate engine others) (generate engine all)) ∧
    ∀ types, typeByType engine types = generate engine types := by
  have hproper : engine.schema.IsProper := Schema.isProper_of_build hbuild
  refine ⟨?_, ?_, ?_⟩
  · intro types others hsame
    have htypes : Holds engine others (generate engine types) :=
      (holds_generate hproper types).congr hsame
    exact htypes.unique (holds_generate hproper others)
  · intro types others all hunion
    have hfirst := holds_generate hproper types
    have hsecond := holds_generate hproper others
    have hall := holds_generate hproper all
    refine ⟨⟨rfl, rfl⟩, ?_, ?_, ?_⟩
    · exact hfirst.operators.isUnion hsecond.operators hall.operators
        fun type _ _ hbrings => hunion type hbrings.contains
    · exact hfirst.filters.isUnion hsecond.filters hall.filters
        fun type _ _ hbrings => hunion type hbrings.contains
    · exact hfirst.orders.isUnion hsecond.orders hall.orders
        fun type _ _ hbrings => hunion type hbrings.contains
  · intro types
    exact (holds_typeByType hproper types).unique (holds_generate hproper types)

/-- An engine with two entities that share operator inputs: both have strings, and under this
adapter the array of the one is treated like the generic field of the other. -/
def sharingEngine : Engine where
  adapter := .sql .mysql
  schema :=
    ⟨.ofList
      [("Post", ⟨"Post", [.declare "title" .string, .declare "tags" .array]⟩),
        ("User", ⟨"User", [.declare "meta" .generic, .declare "name" .string,
          .declare "status" (.enum "Status")]⟩)]⟩
  registry := .empty
  custom := .empty
  limits := {}

/-- The order, a repetition and an unknown name make no difference, and the two operator inputs that
are made for either entity are those of their union. -/
theorem generate_depends_on_set_shared :
    Schema.build [⟨"Post", [.declare "title" .string, .declare "tags" .array]⟩,
        ⟨"User", [.declare "meta" .generic, .declare "name" .string,
          .declare "status" (.enum "Status")]⟩] = .ok sharingEngine.schema ∧
      generate sharingEngine ["User", "Ghost", "Post", "User"] =
        generate sharingEngine ["Post", "User"] ∧
      (generate sharingEngine ["Post"]).operatorInputs.names =
        ["GenericOperators", "StringOperators"] ∧
      (generate sharingEngine ["User"]).operatorInputs.names =
        ["GenericOperators", "StatusOperators", "StringOperators"] ∧
      IsUnion (generate sharingEngine ["Post"]) (generate sharingEngine ["User"])
        (generate sharingEngine ["User", "Post"]) ∧
      typeByType sharingEngine ["User", "Ghost", "Post", "User"] =
        generate sharingEngine ["Post", "User"] := by
  have hbuild : Schema.build [⟨"Post", [.declare "title" .string, .declare "tags" .array]⟩,
      ⟨"User", [.declare "meta" .generic, .declare "name" .string,
        .declare "status" (.enum "Status")]⟩] = .ok sharingEngine.schema := rfl
  obtain ⟨hset, hunion, hstepwise⟩ := generate_depends_on_set hbuild
  have hdeclared : ∀ type, sharingEngine.schema.contains type = true →
      type = "Post" ∨ type = "User" := by
    intro type htype
    obtain ⟨entity, hentity⟩ := Catalog.contains_iff.1 htype
    have hentry := Catalog.get?_eq_some_iff.1 hentity
    have hnames : sharingEngine.schema.entities.names = ["Post", "User"] := by decide
    have hname : type ∈ sharingEngine.schema.entities.names := List.mem_map_of_mem hentry
    simpa [hnames] using hname
  have hsame : generate sharingEngine ["User", "Ghost", "Post", "User"] =
      generate sharingEngine ["Post", "User"] := by
    refine hset _ _ fun type htype => ?_
    rcases hdeclared type htype with rfl | rfl <;> decide
  refine ⟨hbuild, hsame, by decide, by decide, ?_, ?_⟩
  · refine hunion _ _ _ fun type htype => ?_
    rcases hdeclared type htype with rfl | rfl <;> decide
  · exact (hstepwise _).trans hsame

end Inputs

end Criteria
