/-!
# Catalogs: values under names

A `Catalog` holds one value a name and lists its entries in increasing order of the names, which
compare by code points. Entities, enums, custom filters, types and generated inputs are all kept in
catalogs, so that what is listed never depends on the order in which it was declared.

The order of the entries is part of the type. Together with `get?` it determines the catalog.

## Main definitions

* `Catalog.insert` adds an entry or replaces the value under its name;
* `Catalog.get?` looks a name up;
* `Catalog.names`, `Catalog.values` list the entries in order.

## Main results

* `Catalog.get?_insert` — look-up after an insertion;
* `Catalog.get?_eq_some_iff`, `Catalog.mem_names_iff` — look-up finds exactly the entries.
-/

namespace Criteria

universe u v

/-- Values under names, in increasing order of the names. -/
structure Catalog (α : Type u) where
  /-- The entries in increasing order of their names. -/
  entries : List (String × α)
  /-- Each name is smaller than all that follow it. -/
  increasing : entries.Pairwise fun a b => a.1 < b.1

namespace Catalog

variable {α : Type u} {β : Type v}

/-- The catalog without entries. -/
def empty : Catalog α := ⟨[], .nil⟩

instance : Inhabited (Catalog α) := ⟨empty⟩

/-- The names in increasing order. -/
def names (c : Catalog α) : List String := c.entries.map Prod.fst

/-- The values in order of their names. -/
def values (c : Catalog α) : List α := c.entries.map Prod.snd

/-- The number of entries. -/
def size (c : Catalog α) : Nat := c.entries.length

/-- The value under a name. -/
def get? (c : Catalog α) (name : String) : Option α := c.entries.lookup name

/-- Whether there is an entry under a name. -/
def contains (c : Catalog α) (name : String) : Bool := (c.get? name).isSome

/-- Puts an entry into its place among ordered entries. -/
def insertEntry (name : String) (value : α) : List (String × α) → List (String × α)
  | [] => [(name, value)]
  | (n, v) :: rest =>
    if name < n then (name, value) :: (n, v) :: rest
    else if name = n then (name, value) :: rest
    else (n, v) :: insertEntry name value rest

/-- The entries after an insertion are the new one and some of the old ones. -/
theorem eq_or_mem_of_mem_insertEntry {name : String} {value : α} {entries : List (String × α)}
    {e : String × α} (h : e ∈ insertEntry name value entries) :
    e = (name, value) ∨ e ∈ entries := by
  induction entries with
  | nil => simpa [insertEntry] using h
  | cons m rest ih =>
    obtain ⟨n, v⟩ := m
    simp only [insertEntry] at h
    split at h
    · simpa using h
    · split at h
      · rcases List.mem_cons.1 h with h | h
        · exact .inl h
        · exact .inr (List.mem_cons_of_mem _ h)
      · rcases List.mem_cons.1 h with h | h
        · exact .inr (h ▸ List.mem_cons_self)
        · exact (ih h).imp id (List.mem_cons_of_mem _)

/-- Insertion keeps the order. -/
theorem pairwise_insertEntry (name : String) (value : α) {entries : List (String × α)}
    (h : entries.Pairwise fun a b => a.1 < b.1) :
    (insertEntry name value entries).Pairwise fun a b => a.1 < b.1 := by
  induction entries with
  | nil => simp [insertEntry]
  | cons m rest ih =>
    obtain ⟨n, v⟩ := m
    have hr := List.pairwise_cons.1 h
    simp only [insertEntry]
    split
    · next hlt =>
      refine List.pairwise_cons.2 ⟨fun e he => ?_, h⟩
      rcases List.mem_cons.1 he with rfl | he
      · exact hlt
      · exact String.lt_trans hlt (hr.1 e he)
    · next hnlt =>
      split
      · next heq => exact List.pairwise_cons.2 ⟨fun e he => heq ▸ hr.1 e he, hr.2⟩
      · next hne =>
        refine List.pairwise_cons.2 ⟨fun e he => ?_, ih hr.2⟩
        rcases eq_or_mem_of_mem_insertEntry he with rfl | he
        · exact Std.lt_of_le_of_ne hnlt (Ne.symm hne)
        · exact hr.1 e he

/-- Adds an entry, or replaces the value under its name. -/
def insert (c : Catalog α) (name : String) (value : α) : Catalog α :=
  ⟨insertEntry name value c.entries, pairwise_insertEntry name value c.increasing⟩

/-- Adds the entries in turn, the last one of a name winning. -/
def ofList (entries : List (String × α)) : Catalog α :=
  entries.foldl (fun c e => c.insert e.1 e.2) empty

/-- Applies a function to every value. -/
def map (f : α → β) (c : Catalog α) : Catalog β :=
  ⟨c.entries.map fun e => (e.1, f e.2), by
    simpa [List.pairwise_map] using c.increasing⟩

/-! ### Look-up -/

@[simp] theorem get?_empty (name : String) : (empty : Catalog α).get? name = none := rfl

/-- Look-up compares with the first name and goes on. -/
theorem lookup_cons_eq (name : String) (value : α) (rest : List (String × α)) (other : String) :
    ((name, value) :: rest).lookup other =
      if other = name then some value else rest.lookup other := by
  by_cases h : other = name
  · simp [h]
  · have : (other == name) = false := by simpa using h
    simp [List.lookup_cons, h, this]

/-- Look-up among the entries after an insertion. -/
theorem lookup_insertEntry (name : String) (value : α) (entries : List (String × α))
    (other : String) :
    (insertEntry name value entries).lookup other =
      if other = name then some value else entries.lookup other := by
  induction entries with
  | nil => exact lookup_cons_eq name value [] other
  | cons m rest ih =>
    obtain ⟨n, v⟩ := m
    simp only [insertEntry]
    split
    · rw [lookup_cons_eq]
    · split
      · next heq =>
        subst heq
        rw [lookup_cons_eq, lookup_cons_eq]
        by_cases h : other = name <;> simp [h]
      · next hne =>
        rw [lookup_cons_eq, lookup_cons_eq, ih]
        by_cases h : other = n
        · simp [h, Ne.symm hne]
        · simp [h]

/-- Look-up after an insertion. -/
@[simp] theorem get?_insert (c : Catalog α) (name : String) (value : α) (other : String) :
    (c.insert name value).get? other = if other = name then some value else c.get? other :=
  lookup_insertEntry name value c.entries other

theorem get?_insert_self (c : Catalog α) (name : String) (value : α) :
    (c.insert name value).get? name = some value := by simp

@[simp] theorem contains_insert (c : Catalog α) (name : String) (value : α) (other : String) :
    (c.insert name value).contains other = (decide (other = name) || c.contains other) := by
  by_cases h : other = name <;> simp [contains, h]

/-! ### Entries -/

variable {c : Catalog α} {name : String} {value : α}

/-- Among increasing entries, look-up finds exactly those that are there. -/
theorem lookup_eq_some_iff {entries : List (String × α)}
    (hincreasing : entries.Pairwise fun a b => a.1 < b.1) :
    entries.lookup name = some value ↔ (name, value) ∈ entries := by
  induction entries with
  | nil => simp
  | cons entry rest ih =>
    obtain ⟨first, found⟩ := entry
    obtain ⟨hfirst, hrest⟩ := List.pairwise_cons.1 hincreasing
    rw [lookup_cons_eq, List.mem_cons]
    by_cases hname : name = first
    · -- no later entry has the first name
      have hlater : (name, value) ∉ rest := fun h => by
        have hlt : first < name := hfirst _ h
        exact String.lt_irrefl first (hname ▸ hlt)
      subst hname
      simp [hlater, eq_comm]
    · rw [if_neg hname, ih hrest]
      simp [hname]

theorem get?_eq_some_iff : c.get? name = some value ↔ (name, value) ∈ c.entries :=
  lookup_eq_some_iff c.increasing

theorem mem_names_iff : name ∈ c.names ↔ ∃ value, c.get? name = some value := by
  unfold names
  rw [List.mem_map]
  constructor
  · rintro ⟨⟨_, value⟩, hentry, rfl⟩
    exact ⟨value, get?_eq_some_iff.2 hentry⟩
  · rintro ⟨value, hvalue⟩
    exact ⟨(name, value), get?_eq_some_iff.1 hvalue, rfl⟩

end Catalog

end Criteria
