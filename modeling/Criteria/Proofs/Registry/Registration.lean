import Mathlib.Data.Finset.Card
import Mathlib.Data.List.Destutter
import Mathlib.Data.List.Induction
import Mathlib.Data.List.Sort
import Mathlib.Data.Prod.Lex
import Mathlib.Data.String.Basic
import Criteria.Proofs.Registry.Custom

/-!
# Custom filters by their history

A registry of custom filters is the outcome of a sequence of registrations. Operator keys may be
written with or without their underscore, and the same place may be registered again and again; what
the registry answers can be read off the registrations all the same. A look-up finds the filter of
the last registration in its place, and the listings are exactly what can be looked up, each once
and in order.

Filters are kept entity by entity and field by field. Listed all together, they are triples in
lexicographic order, and each listing is a stretch of them: the operators of a field are what stands
under this field, and the fields of an entity are what stands under this entity when repetitions are
dropped. It is enough to drop a repetition that stands next to its like, because in this order the
triples of one field do.

* `CustomFilters.Registration`, `CustomFilters.ofHistory` — the registrations, and the registry they
  lead to;
* `CustomFilters.lastFilter?`, `CustomFilters.get?_ofHistory` — what a look-up finds;
* `CustomFilters.pairwise_keys`, `CustomFilters.mem_keys_ofHistory` — all keys, in order;
* `CustomFilters.operatorKeys_eq`, `CustomFilters.fieldNames_ofHistory` — listings as stretches of
  the keys;
* `CustomFilters.listings_ofHistory` — look-ups, listings and size, by the registrations.
-/

namespace Criteria.CustomFilters

/-- The registration of a custom filter. -/
structure Registration where
  /-- The entity. -/
  entity : String
  /-- The field, declared or computed. -/
  field : String
  /-- The operator key, with or without its underscore. -/
  key : String
  /-- The filter. -/
  filter : CustomFilter

/-- Where a filter is kept: the entity, the field and the canonical key. -/
def Registration.place (registration : Registration) : String × String × String :=
  (registration.entity, registration.field, canonicalKey registration.key)

/-- The registry after a registration. -/
def apply (custom : CustomFilters) (registration : Registration) : CustomFilters :=
  custom.register registration.entity registration.field registration.key registration.filter

/-- The registry that a sequence of registrations leads to. -/
def ofHistory (history : List Registration) : CustomFilters := history.foldl apply .empty

/-- The filter of the last registration in a place. -/
def lastFilter? (history : List Registration) (place : String × String × String) :
    Option CustomFilter :=
  (history.reverse.find? fun registration => registration.place = place).map Registration.filter

/-- A place stands before another one in lexicographic order. -/
def Precedes : String × String × String → String × String × String → Prop :=
  Prod.Lex (· < ·) (Prod.Lex (· < ·) (· < ·))

instance : Std.Irrefl Precedes := inferInstanceAs (Std.Irrefl (Prod.Lex _ (Prod.Lex _ _)))

theorem precedes_iff {first second : String × String × String} :
    Precedes first second ↔ first.1 < second.1 ∨ first.1 = second.1 ∧
      (first.2.1 < second.2.1 ∨ first.2.1 = second.2.1 ∧ first.2.2 < second.2.2) := by
  rw [Precedes, Prod.lex_def, Prod.lex_def]

variable {custom : CustomFilters} {history : List Registration} {registration : Registration}
  {entity field key : String}

/-! ### One registration -/

/-- A registration changes what is found in its own place, and nothing else. -/
theorem get?_apply (custom : CustomFilters) (registration : Registration)
    (entity field key : String) :
    (custom.apply registration).get? entity field key =
      if registration.place = (entity, field, canonicalKey key) then some registration.filter
      else custom.get? entity field key := by
  have hplace : registration.place = (entity, field, canonicalKey key) ↔
      (entity = registration.entity ∧ field = registration.field) ∧
        canonicalKey key = canonicalKey registration.key := by
    simp only [Registration.place, Prod.mk.injEq, and_assoc, eq_comm]
  simp only [hplace]
  rw [get?, apply, operatorsOf_register]
  by_cases hfield : entity = registration.entity ∧ field = registration.field
  · rw [if_pos hfield, Catalog.get?_insert, get?, hfield.1, hfield.2]
    simp only [true_and, and_self]
  · rw [if_neg hfield, if_neg (fun h => hfield h.1), get?]

/-- A registration adds its own field, and no other. -/
theorem hasField_apply :
    (custom.apply registration).hasField entity field = true ↔
      custom.hasField entity field = true ∨
        registration.entity = entity ∧ registration.field = field := by
  rw [hasField, apply, fieldsOf_register]
  by_cases hentity : entity = registration.entity
  · rw [if_pos hentity, Catalog.contains_insert, Bool.or_eq_true, decide_eq_true_eq, hasField,
      ← hentity, and_iff_right rfl, or_comm, eq_comm (a := field)]
  · rw [if_neg hentity, hasField, or_iff_left fun h => hentity h.1.symm]

/-! ### Histories -/

theorem ofHistory_concat (history : List Registration) (registration : Registration) :
    ofHistory (history ++ [registration]) = (ofHistory history).apply registration :=
  List.foldl_concat ..

theorem lastFilter?_concat (history : List Registration) (registration : Registration)
    (place : String × String × String) :
    lastFilter? (history ++ [registration]) place =
      if registration.place = place then some registration.filter
      else lastFilter? history place := by
  rw [lastFilter?, List.reverse_concat, List.find?_cons]
  by_cases hplace : registration.place = place
  · rw [if_pos hplace, decide_eq_true hplace]
    rfl
  · rw [if_neg hplace, decide_eq_false hplace]
    rfl

theorem assembled_ofHistory (history : List Registration) : (ofHistory history).Assembled := by
  induction history using List.reverseRecOn with
  | nil => exact .empty
  | append_singleton history registration ih =>
    rw [ofHistory_concat]
    exact .register ih

/-- **A look-up finds the filter of the last registration** in its place. -/
theorem get?_ofHistory (history : List Registration) (entity field key : String) :
    (ofHistory history).get? entity field key =
      lastFilter? history (entity, field, canonicalKey key) := by
  induction history using List.reverseRecOn with
  | nil => rfl
  | append_singleton history registration ih =>
    rw [ofHistory_concat, get?_apply, lastFilter?_concat, ih]

/-- There is a filter in a place exactly if the place was registered. -/
theorem contains_ofHistory :
    (ofHistory history).contains entity field key = true ↔
      (entity, field, canonicalKey key) ∈ history.map Registration.place := by
  rw [contains, get?_ofHistory, lastFilter?, Option.isSome_map, List.find?_isSome]
  simp only [List.mem_reverse, decide_eq_true_eq, List.mem_map]

/-- Places are registered under canonical keys. -/
theorem canonicalKey_of_mem_places
    (hplace : (entity, field, key) ∈ history.map Registration.place) : canonicalKey key = key := by
  obtain ⟨registration, -, hsame⟩ := List.mem_map.1 hplace
  cases hsame
  exact canonicalKey_canonicalKey registration.key

/-- A field is known exactly if a place of it was registered. -/
theorem hasField_ofHistory :
    (ofHistory history).hasField entity field = true ↔
      ∃ key, (entity, field, key) ∈ history.map Registration.place := by
  induction history using List.reverseRecOn with
  | nil => exact iff_of_false nofun nofun
  | append_singleton history registration ih =>
    have hlast : (∃ key, (entity, field, key) = registration.place) ↔
        registration.entity = entity ∧ registration.field = field := by
      constructor
      · rintro ⟨key, hplace⟩
        cases hplace
        exact ⟨rfl, rfl⟩
      · rintro ⟨rfl, rfl⟩
        exact ⟨canonicalKey registration.key, rfl⟩
    rw [ofHistory_concat, hasField_apply, ih, ← hlast, ← exists_or]
    simp only [List.map_append, List.mem_append, List.map_singleton, List.mem_singleton]

/-- A field is known exactly if there is a filter for it. -/
theorem hasField_ofHistory_iff_contains :
    (ofHistory history).hasField entity field = true ↔
      ∃ key, (ofHistory history).contains entity field key = true := by
  rw [hasField_ofHistory]
  constructor
  · rintro ⟨key, hplace⟩
    have hcanonical := canonicalKey_of_mem_places hplace
    exact ⟨key, contains_ofHistory.2 (hcanonical.symm ▸ hplace)⟩
  · rintro ⟨key, hcontains⟩
    exact ⟨canonicalKey key, contains_ofHistory.1 hcontains⟩

/-! ### All keys -/

/-- All keys are those that are listed for some field of some entity. -/
theorem mem_keys_iff :
    (entity, field, key) ∈ custom.keys ↔ key ∈ custom.operatorKeys entity field := by
  rw [operatorKeys, Catalog.mem_names_iff]
  simp only [operatorsOf, fieldsOf, Catalog.get?_getD_eq_some_iff]
  simp only [keys, List.mem_flatMap, List.mem_map, Prod.exists, Prod.mk.injEq,
    ← Catalog.get?_eq_some_iff, Catalog.mem_names_iff]
  constructor
  · rintro ⟨_, fields, hfields, _, operators, hoperators, _, ⟨filter, hfilter⟩, rfl, rfl, rfl⟩
    exact ⟨filter, operators, ⟨fields, hfields, hoperators⟩, hfilter⟩
  · rintro ⟨filter, operators, ⟨fields, hfields, hoperators⟩, hfilter⟩
    exact ⟨entity, fields, hfields, field, operators, hoperators, key, ⟨filter, hfilter⟩, rfl, rfl,
      rfl⟩

/-- All keys are listed in lexicographic order. -/
theorem pairwise_keys (custom : CustomFilters) : custom.keys.Pairwise Precedes := by
  have hkeys : custom.keys = custom.filters.entries.flatMap fun entry =>
      (entry.2.entries.flatMap fun entry => entry.2.names.map (Prod.mk entry.1)).map
        (Prod.mk entry.1) := by
    simp only [keys, List.map_flatMap, List.map_map]
    rfl
  rw [hkeys]
  refine Catalog.pairwise_flatMap_entries (fun entry => ?_) custom.filters
  exact Catalog.pairwise_flatMap_entries (fun entry => entry.2.pairwise_names) entry.2

/-- The keys are the places that were registered. -/
theorem mem_keys_ofHistory {place : String × String × String} :
    place ∈ (ofHistory history).keys ↔ place ∈ history.map Registration.place := by
  obtain ⟨entity, field, key⟩ := place
  rw [mem_keys_iff, (assembled_ofHistory history).mem_operatorKeys_iff, contains_ofHistory]
  constructor
  · rintro ⟨hcanonical, hplace⟩
    rwa [hcanonical] at hplace
  · intro hplace
    have hcanonical := canonicalKey_of_mem_places hplace
    exact ⟨hcanonical, hcanonical.symm ▸ hplace⟩

/-- **The registry has one filter for each place** that was registered. -/
theorem size_ofHistory (history : List Registration) :
    (ofHistory history).size = (history.map Registration.place).toFinset.card := by
  have hplaces : (ofHistory history).keys.toFinset = (history.map Registration.place).toFinset := by
    ext place
    rw [List.mem_toFinset, List.mem_toFinset, mem_keys_ofHistory]
  rw [size, ← hplaces, List.toFinset_card_of_nodup (pairwise_keys _).nodup]

/-! ### Listings -/

theorem pairwise_operatorKeys (custom : CustomFilters) (entity field : String) :
    (custom.operatorKeys entity field).Pairwise (· < ·) :=
  (custom.operatorsOf entity field).pairwise_names

/-- The keys that are listed are the canonical forms of those under which there is a filter. -/
theorem mem_operatorKeys_ofHistory :
    key ∈ (ofHistory history).operatorKeys entity field ↔
      ∃ written, canonicalKey written = key ∧
        (ofHistory history).contains entity field written = true := by
  constructor
  · intro hkey
    obtain ⟨hcanonical, hcontains⟩ := (assembled_ofHistory history).mem_operatorKeys_iff.1 hkey
    exact ⟨key, hcanonical, hcontains⟩
  · rintro ⟨written, rfl, hcontains⟩
    exact canonicalKey_mem_operatorKeys hcontains

theorem pairwise_fieldNames (custom : CustomFilters) (entity : String) :
    (custom.fieldNames entity).Pairwise (· < ·) :=
  (custom.fieldsOf entity).pairwise_names

/-- The operators of a field are a stretch of the keys. -/
theorem operatorKeys_eq (custom : CustomFilters) (entity field : String) :
    custom.operatorKeys entity field =
      (custom.keys.filter fun key => key.1 = entity ∧ key.2.1 = field).map (·.2.2) := by
  have hordered : ((custom.keys.filter fun key => key.1 = entity ∧ key.2.1 = field).map
      (·.2.2)).Pairwise (· < ·) := by
    rw [List.pairwise_map, List.pairwise_filter]
    refine (pairwise_keys custom).imp fun {first second} hprecedes hfirst hsecond => ?_
    simp only [decide_eq_true_eq] at hfirst hsecond
    -- keys of one field of one entity differ in their operators alone
    rw [precedes_iff, hfirst.1, hfirst.2, hsecond.1, hsecond.2] at hprecedes
    simpa using hprecedes
  refine (pairwise_operatorKeys custom entity field).eq_of_mem_iff hordered fun key => ?_
  simp [mem_keys_iff]

/-- The fields of an entity are a stretch of the keys, with repetitions that stand next to their
like dropped. -/
theorem fieldNames_ofHistory (history : List Registration) (entity : String) :
    (ofHistory history).fieldNames entity =
      (((ofHistory history).keys.filter fun key => key.1 = entity).map (·.2.1)).destutter
        (· ≠ ·) := by
  generalize hstretch :
    ((ofHistory history).keys.filter fun key => key.1 = entity).map (·.2.1) = stretch
  have hordered : stretch.Pairwise (· ≤ ·) := by
    rw [← hstretch, List.pairwise_map, List.pairwise_filter]
    refine (pairwise_keys _).imp fun {first second} hprecedes hfirst hsecond => ?_
    simp only [decide_eq_true_eq] at hfirst hsecond
    -- keys of one entity are ordered by their fields first
    rw [precedes_iff, hfirst, hsecond] at hprecedes
    rcases hprecedes with hentity | ⟨-, hlt | ⟨heq, -⟩⟩
    · exact absurd hentity (lt_irrefl entity)
    · exact hlt.le
    · exact heq.le
  have hincreasing : stretch.dedup.Pairwise (· < ·) :=
    ((hordered.sublist (List.dedup_sublist stretch)).and (List.nodup_dedup stretch)).imp
      fun h => lt_of_le_of_ne h.1 h.2
  rw [hordered.destutter_eq_dedup]
  refine (pairwise_fieldNames _ entity).eq_of_mem_iff hincreasing fun field => ?_
  rw [mem_fieldNames_iff, hasField_ofHistory, List.mem_dedup, ← hstretch]
  simp [mem_keys_ofHistory]

/-- **The look-ups and listings of custom filters, by their history.** A look-up finds the filter
of the last registration of this entity and field under this key, with or without the underscore.
The operators of a field are listed in increasing order, and are exactly the canonical forms of the
keys under which there is a filter. The fields of an entity are listed in increasing order, and are
exactly those that are known, which are those with a filter. Both listings are stretches of all
keys, for the fields without the repetitions next to each other. All keys are in lexicographic order
and are the places that were registered, and the registry has as many filters as there are different
ones. -/
theorem listings_ofHistory (history : List Registration) :
    (∀ entity field key, (ofHistory history).get? entity field key =
      lastFilter? history (entity, field, canonicalKey key)) ∧
    (∀ entity field,
      ((ofHistory history).operatorKeys entity field).Pairwise (· < ·) ∧
      (∀ key, key ∈ (ofHistory history).operatorKeys entity field ↔
        ∃ written, canonicalKey written = key ∧
          (ofHistory history).contains entity field written = true) ∧
      (ofHistory history).operatorKeys entity field =
        ((ofHistory history).keys.filter fun key => key.1 = entity ∧ key.2.1 = field).map
          (·.2.2)) ∧
    (∀ entity,
      ((ofHistory history).fieldNames entity).Pairwise (· < ·) ∧
      (∀ field, field ∈ (ofHistory history).fieldNames entity ↔
        (ofHistory history).hasField entity field = true) ∧
      (ofHistory history).fieldNames entity =
        (((ofHistory history).keys.filter fun key => key.1 = entity).map (·.2.1)).destutter
          (· ≠ ·)) ∧
    (∀ entity field, (ofHistory history).hasField entity field = true ↔
      ∃ key, (ofHistory history).contains entity field key = true) ∧
    ((ofHistory history).keys.Pairwise Precedes ∧
      ∀ place, place ∈ (ofHistory history).keys ↔ place ∈ history.map Registration.place) ∧
    (ofHistory history).size = (history.map Registration.place).toFinset.card := by
  refine ⟨get?_ofHistory history, fun entity field => ?_, fun entity => ?_,
    fun entity field => hasField_ofHistory_iff_contains,
    ⟨pairwise_keys _, fun place => mem_keys_ofHistory⟩, size_ofHistory history⟩
  · exact ⟨pairwise_operatorKeys _ entity field, fun key => mem_operatorKeys_ofHistory,
      operatorKeys_eq _ entity field⟩
  · exact ⟨pairwise_fieldNames _ entity, fun field => mem_fieldNames_iff,
      fieldNames_ofHistory history entity⟩

/-- A key that is written in both ways is one key. -/
example (first second third : CustomFilter) :
    let custom := ofHistory
      [⟨"User", "name", "sounds_like", first⟩, ⟨"User", "name", "_fuzzy", second⟩,
        ⟨"User", "age_bucket", "_eq", first⟩, ⟨"User", "name", "_sounds_like", third⟩]
    custom.operatorKeys "User" "name" = ["_fuzzy", "_sounds_like"] ∧
      custom.fieldNames "User" = ["age_bucket", "name"] ∧ custom.size = 3 := by
  cbv

end Criteria.CustomFilters
