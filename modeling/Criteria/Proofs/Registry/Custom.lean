import Criteria.Custom
import Criteria.Proofs.Catalog

/-!
# How registries of custom filters come about

Custom filters are registered one after the other, and every key is put into its canonical form on
the way in. So the keys that are listed for a field are canonical, and they are exactly the keys
under which a filter is found.

* `CustomFilters.Assembled` — the registries that registration leads to;
* `operatorsOf_register` — what one registration changes;
* `Assembled.mem_operatorKeys_iff` — what is listed is what is found.
-/

namespace Criteria.CustomFilters

variable {custom : CustomFilters} {entity field key : String}

/-- The registries that registration leads to. -/
inductive Assembled : CustomFilters → Prop
  | empty : Assembled .empty
  | register {custom : CustomFilters} {entity field key : String} {filter : CustomFilter} :
    Assembled custom → Assembled (custom.register entity field key filter)

/-! ### Registration -/

/-- Only the filters of one field of one entity change, and they by one. -/
theorem operatorsOf_register (custom : CustomFilters) (entity field key : String)
    (filter : CustomFilter) (otherEntity otherField : String) :
    (custom.register entity field key filter).operatorsOf otherEntity otherField =
      if otherEntity = entity ∧ otherField = field then
        (custom.operatorsOf entity field).insert (canonicalKey key) filter
      else custom.operatorsOf otherEntity otherField := by
  rw [operatorsOf, fieldsOf_register]
  by_cases hentity : otherEntity = entity
  · rw [if_pos hentity, Catalog.get?_insert]
    by_cases hfield : otherField = field
    · rw [if_pos hfield, if_pos ⟨hentity, hfield⟩, Option.getD_some]
    · rw [if_neg hfield, if_neg (fun h => hfield h.2), hentity, operatorsOf]
  · rw [if_neg hentity, if_neg (fun h => hentity h.1), operatorsOf]

/-- Every key that is kept is canonical. -/
theorem Assembled.canonicalKey_of_get? (h : Assembled custom) {filter : CustomFilter}
    (hget : (custom.operatorsOf entity field).get? key = some filter) :
    canonicalKey key = key := by
  induction h with
  | empty => cases hget
  | @register custom registeredEntity registeredField registeredKey registered _ ih =>
    rw [operatorsOf_register] at hget
    -- the key is the one that was registered last, or it was there before
    split at hget
    · rw [Catalog.get?_insert] at hget
      by_cases hkey : key = canonicalKey registeredKey
      · rw [hkey, canonicalKey_canonicalKey]
      · rw [if_neg hkey] at hget
        next hplace => exact ih (hplace.1 ▸ hplace.2 ▸ hget)
    · exact ih hget

/-! ### Listings -/

/-- The keys that are listed are the canonical ones under which there is a filter. -/
theorem Assembled.mem_operatorKeys_iff (h : Assembled custom) :
    key ∈ custom.operatorKeys entity field ↔
      canonicalKey key = key ∧ custom.contains entity field key = true := by
  unfold operatorKeys contains get?
  rw [Catalog.mem_names_iff, Option.isSome_iff_exists]
  constructor
  · rintro ⟨filter, hget⟩
    have hcanonical := h.canonicalKey_of_get? hget
    exact ⟨hcanonical, filter, hcanonical.symm ▸ hget⟩
  · rintro ⟨hcanonical, filter, hget⟩
    exact ⟨filter, hcanonical ▸ hget⟩

/-- A filter that is found is listed under its canonical key. -/
theorem canonicalKey_mem_operatorKeys (hcontains : custom.contains entity field key = true) :
    canonicalKey key ∈ custom.operatorKeys entity field := by
  obtain ⟨filter, hget⟩ := Option.isSome_iff_exists.1 hcontains
  exact Catalog.mem_names_iff.2 ⟨filter, hget⟩

/-- A field with a filter is a field with filters. -/
theorem hasField_of_mem_operatorKeys (hkey : key ∈ custom.operatorKeys entity field) :
    custom.hasField entity field = true := by
  obtain ⟨filter, hget⟩ := Catalog.mem_names_iff.1 hkey
  obtain ⟨operators, hfield, -⟩ := Catalog.get?_getD_eq_some_iff.1 hget
  exact Catalog.contains_iff.2 ⟨operators, hfield⟩

theorem mem_fieldNames_iff :
    field ∈ custom.fieldNames entity ↔ custom.hasField entity field = true :=
  Catalog.mem_names_iff.trans Catalog.contains_iff.symm

end Criteria.CustomFilters
