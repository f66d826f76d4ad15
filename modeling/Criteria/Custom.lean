import Criteria.Catalog
import Criteria.Native.Error

/-!
# Custom filters

An application may register predicates that the built-in operators cannot express, under an
entity, a field and an operator key of its own. The field need not be declared: a field known only
here is *computed*.

A custom filter is called with the adapter, the quoted column and the operand, and answers with a
fragment in the adapter's language. SQL text comes in pieces, so that a value among the pieces is
bound as a parameter and never becomes text. Values are numbered in the order in which they are
bound. Where their placeholders stand is up to the filter: it may leave one out, write one more than
once, or write them in another order.

The registry nests catalogs: entity, field, operator. Keys are kept with their leading underscore,
which callers may leave out.
-/

namespace Criteria

/-- A piece of the SQL text of a custom filter. -/
inductive CustomPiece where
  /-- Text as it stands. -/
  | text (sql : String)
  /-- A value to bind, and its placeholder. -/
  | value (value : Json)
  /-- A value to bind, whose placeholder is not written here. -/
  | bind (value : Json)
  /-- The placeholder of a value of the same filter, counted from zero. Nothing is written for a
  value that is not bound yet. -/
  | again (index : Nat)
deriving Repr

/-- What a custom filter answers with. -/
inductive CustomFragment where
  /-- A SQL condition. -/
  | sql (pieces : List CustomPiece)
  /-- A query document. -/
  | document (document : Json)
deriving Repr

/-- What a custom filter is called with. -/
structure CustomCall where
  /-- The adapter compiled for. -/
  adapter : Adapter
  /-- The column in the adapter's quoting. -/
  column : String
  /-- The operand as the client wrote it. -/
  operand : Json
deriving Repr

/-- A custom predicate. -/
abbrev CustomFilter := CustomCall → Except CompileError CustomFragment

/-- The registered custom filters. -/
structure CustomFilters where
  /-- The filters under entity, field and operator key. -/
  filters : Catalog (Catalog (Catalog CustomFilter))

namespace CustomFilters

/-- The registry without filters. -/
def empty : CustomFilters := ⟨.empty⟩

instance : Inhabited CustomFilters := ⟨empty⟩

/-- An operator key with its leading underscore. -/
def canonicalKey (key : String) : String :=
  match key.toList with
  | '_' :: _ => key
  | _ => "_" ++ key

/-- The fields of an entity with their filters. -/
def fieldsOf (custom : CustomFilters) (entity : String) : Catalog (Catalog CustomFilter) :=
  (custom.filters.get? entity).getD .empty

/-- The filters of a field under their keys. -/
def operatorsOf (custom : CustomFilters) (entity field : String) : Catalog CustomFilter :=
  ((custom.fieldsOf entity).get? field).getD .empty

/-- Registers a filter, replacing an earlier one under the same entity, field and key. -/
def register (custom : CustomFilters) (entity field key : String) (filter : CustomFilter) :
    CustomFilters :=
  let operators := (custom.operatorsOf entity field).insert (canonicalKey key) filter
  ⟨custom.filters.insert entity ((custom.fieldsOf entity).insert field operators)⟩

/-- The filter under an entity, a field and a key. -/
def get? (custom : CustomFilters) (entity field key : String) : Option CustomFilter :=
  (custom.operatorsOf entity field).get? (canonicalKey key)

/-- Whether there is a filter under an entity, a field and a key. -/
def contains (custom : CustomFilters) (entity field key : String) : Bool :=
  (custom.get? entity field key).isSome

/-- Whether a field has any filter. -/
def hasField (custom : CustomFilters) (entity field : String) : Bool :=
  (custom.fieldsOf entity).contains field

/-- The operator keys of a field, in order. -/
def operatorKeys (custom : CustomFilters) (entity field : String) : List String :=
  (custom.operatorsOf entity field).names

/-- The fields of an entity that have filters, in order. -/
def fieldNames (custom : CustomFilters) (entity : String) : List String :=
  (custom.fieldsOf entity).names

/-- All keys in order: entity, field, operator. -/
def keys (custom : CustomFilters) : List (String × String × String) :=
  custom.filters.entries.flatMap fun (entity, fields) =>
    fields.entries.flatMap fun (field, operators) =>
      operators.names.map fun key => (entity, field, key)

/-- The number of filters. -/
def size (custom : CustomFilters) : Nat := custom.keys.length

/-! ### Keys -/

theorem canonicalKey_of_toList {key : String} {rest : List Char} (h : key.toList = '_' :: rest) :
    canonicalKey key = key := by
  rw [canonicalKey, h]
  rfl

/-- A canonical key starts with an underscore. -/
theorem exists_toList_canonicalKey (key : String) :
    ∃ rest, (canonicalKey key).toList = '_' :: rest := by
  unfold canonicalKey
  split
  · next rest hrest => exact ⟨rest, hrest⟩
  · exact ⟨key.toList, by simp⟩

/-- A key has its underscore, and getting it again changes nothing. -/
@[simp] theorem canonicalKey_canonicalKey (key : String) :
    canonicalKey (canonicalKey key) = canonicalKey key := by
  obtain ⟨rest, hrest⟩ := exists_toList_canonicalKey key
  exact canonicalKey_of_toList hrest

/-- A key that names a built-in operator is the key of this operator up to its underscore. -/
theorem canonicalKey_of_ofKey? {key : String} {op : Operator}
    (h : Operator.ofKey? key = some op) : canonicalKey key = op.key := by
  unfold Operator.ofKey? at h
  split at h
  · next rest hrest =>
    have hlist : op.key.toList = key.toList := by
      rw [Operator.key, Operator.word_of_ofWord? h]
      simp [hrest]
    rw [canonicalKey_of_toList hrest, ← String.toList_inj, hlist]
  · next hother =>
    rw [Operator.key, Operator.word_of_ofWord? h]
    unfold canonicalKey
    split
    · next rest hrest => exact absurd hrest (hother rest)
    · rfl

@[simp] theorem canonicalKey_key (op : Operator) : canonicalKey op.key = op.key :=
  canonicalKey_of_ofKey? (Operator.ofKey?_key op)

/-! ### Look-up after registration -/

@[simp] theorem fieldsOf_register (custom : CustomFilters) (entity field key : String)
    (filter : CustomFilter) (other : String) :
    (custom.register entity field key filter).fieldsOf other =
      if other = entity then
        (custom.fieldsOf entity).insert field
          ((custom.operatorsOf entity field).insert (canonicalKey key) filter)
      else custom.fieldsOf other := by
  simp only [fieldsOf, register, Catalog.get?_insert]
  split <;> simp

end CustomFilters

end Criteria
