import Criteria.Catalog

/-!
# Catalogs as maps

The entries of a catalog are in strictly increasing order, so no name occurs twice, and looking a
name up finds the one entry that it has. So a catalog is a map from names to values, and what it
lists is what can be looked up, in an order that depends on nothing else.

* `mem_values_iff`, `contains_iff` — what is listed is what can be looked up;
* `pairwise_names`, `pairwise_flatMap_entries` — names are listed in order, and so are rows that
  begin with them;
* `ext_get?` — a catalog is determined by what can be looked up;
* `get?_map` — what a catalog has after a function was applied to its values;
* `get?_ofList`, `mem_of_get?_ofList`, `contains_ofList` — what a catalog of a list has under a name
  on which the list agrees, and that it has nothing else;
* `Gains` — a catalog after values were added under names of their own;
* `Fresh` — values that can be added, because their names are neither taken nor repeated.
-/

namespace Criteria.Catalog

universe u

variable {α : Type u} {c : Catalog α} {name : String} {value : α}

theorem pairwise_names (c : Catalog α) : c.names.Pairwise (· < ·) :=
  List.pairwise_map.2 c.increasing

theorem mem_values_iff : value ∈ c.values ↔ ∃ name, c.get? name = some value := by
  unfold values
  rw [List.mem_map]
  constructor
  · rintro ⟨⟨name, _⟩, hentry, rfl⟩
    exact ⟨name, get?_eq_some_iff.2 hentry⟩
  · rintro ⟨name, hname⟩
    exact ⟨(name, value), get?_eq_some_iff.1 hname, rfl⟩

theorem contains_iff : c.contains name = true ↔ ∃ value, c.get? name = some value :=
  Option.isSome_iff_exists

/-- **Look-up determines a catalog.** Its entries have one order only. -/
theorem ext_get? {c d : Catalog α} (h : ∀ name, c.get? name = d.get? name) : c = d := by
  have hmem : ∀ entry, entry ∈ c.entries ↔ entry ∈ d.entries := by
    rintro ⟨name, value⟩
    rw [← get?_eq_some_iff, ← get?_eq_some_iff, h]
  have hnodup : ∀ c : Catalog α, c.entries.Nodup := by
    intro c
    refine c.increasing.imp fun {first second} hlt hsame => ?_
    exact String.lt_irrefl second.1 (hsame ▸ hlt)
  have hperm : c.entries.Perm d.entries :=
    (List.perm_ext_iff_of_nodup (hnodup c) (hnodup d)).2 hmem
  have hentries : c.entries = d.entries := by
    refine hperm.eq_of_pairwise ?_ c.increasing d.increasing
    intro first second _ _ hlt hgt
    exact absurd (String.lt_trans hlt hgt) (String.lt_irrefl first.1)
  cases c
  cases d
  cases hentries
  rfl

/-- Where a catalog may be missing, something is found only if it is not. -/
theorem get?_getD_eq_some_iff {found : Option (Catalog α)} :
    (found.getD .empty).get? name = some value ↔
      ∃ c, found = some c ∧ c.get? name = some value := by
  cases found with
  | none => exact iff_of_false nofun nofun
  | some c => simp

/-- Rows that begin with the names of a catalog are in lexicographic order, if those of each name
are. -/
theorem pairwise_flatMap_entries {β : Type} {r : β → β → Prop} {rows : String × α → List β}
    (hrows : ∀ entry, (rows entry).Pairwise r) (c : Catalog α) :
    (c.entries.flatMap fun entry => (rows entry).map (Prod.mk entry.1)).Pairwise
      (Prod.Lex (· < ·) r) := by
  rw [List.pairwise_flatMap]
  constructor
  · intro entry _
    rw [List.pairwise_map]
    exact (hrows entry).imp (Prod.Lex.right entry.1)
  · refine c.increasing.imp fun {entry other} hlt => ?_
    rintro first hfirst second hsecond
    obtain ⟨row, -, rfl⟩ := List.mem_map.1 hfirst
    obtain ⟨row', -, rfl⟩ := List.mem_map.1 hsecond
    exact Prod.Lex.left row row' hlt

/-- Look-up after a function was applied to every value. -/
theorem get?_map {β : Type u} (f : α → β) (c : Catalog α) (name : String) :
    (c.map f).get? name = (c.get? name).map f := by
  change (c.entries.map fun entry => (entry.1, f entry.2)).lookup name =
    (c.entries.lookup name).map f
  induction c.entries with
  | nil => rfl
  | cons entry rest ih =>
    obtain ⟨first, found⟩ := entry
    rw [List.map_cons, lookup_cons_eq, lookup_cons_eq, ih]
    split <;> rfl

/-! ### Lists of entries -/

/-- Adding entries that agree on a name keeps what is under the name. -/
theorem get?_foldl_insert {entries : List (String × α)}
    (hagree : ∀ other, (name, other) ∈ entries → other = value) :
    ∀ {c : Catalog α}, c.get? name = some value →
      (entries.foldl (fun c e => c.insert e.1 e.2) c).get? name = some value := by
  induction entries with
  | nil =>
    intro c hc
    exact hc
  | cons entry rest ih =>
    intro c hc
    obtain ⟨first, found⟩ := entry
    rw [List.foldl_cons]
    refine ih (fun other hother => hagree other (List.mem_cons_of_mem _ hother)) ?_
    rw [get?_insert]
    by_cases hname : name = first
    · rw [if_pos hname, hagree found (hname ▸ List.mem_cons_self)]
    · rw [if_neg hname, hc]

/-- A list that has a name, and the same value wherever it has it, puts this value under the
name. -/
theorem get?_ofList {entries : List (String × α)} (hmem : (name, value) ∈ entries)
    (hagree : ∀ other, (name, other) ∈ entries → other = value) :
    (ofList entries).get? name = some value := by
  unfold ofList
  generalize (empty : Catalog α) = c
  induction entries generalizing c with
  | nil => cases hmem
  | cons entry rest ih =>
    have hrest : ∀ other, (name, other) ∈ rest → other = value := fun other hother =>
      hagree other (List.mem_cons_of_mem _ hother)
    rw [List.foldl_cons]
    rcases List.mem_cons.1 hmem with rfl | hmem
    · -- what comes later agrees with the first entry
      exact get?_foldl_insert hrest (get?_insert_self c name value)
    · exact ih hmem hrest _

/-- What is under a name after entries were added is one of them, or was there before. -/
theorem mem_or_get?_of_foldl_insert {entries : List (String × α)} :
    ∀ {c : Catalog α}, (entries.foldl (fun c e => c.insert e.1 e.2) c).get? name = some value →
      (name, value) ∈ entries ∨ c.get? name = some value := by
  induction entries with
  | nil =>
    intro c h
    exact .inr h
  | cons entry rest ih =>
    intro c h
    rw [List.foldl_cons] at h
    rcases ih h with hrest | hfound
    · exact .inl (List.mem_cons_of_mem _ hrest)
    · rw [get?_insert] at hfound
      by_cases hname : name = entry.1
      · rw [if_pos hname] at hfound
        obtain rfl := Option.some.inj hfound
        exact .inl (hname ▸ List.mem_cons_self)
      · rw [if_neg hname] at hfound
        exact .inr hfound

/-- What a list puts under a name is in the list. -/
theorem mem_of_get?_ofList {entries : List (String × α)}
    (h : (ofList entries).get? name = some value) : (name, value) ∈ entries := by
  rcases mem_or_get?_of_foldl_insert h with hmem | hempty
  · exact hmem
  · cases hempty

theorem contains_foldl_insert {entries : List (String × α)} :
    ∀ {c : Catalog α}, (entries.foldl (fun c e => c.insert e.1 e.2) c).contains name = true ↔
      c.contains name = true ∨ name ∈ entries.map Prod.fst := by
  induction entries with
  | nil =>
    intro c
    simp
  | cons entry rest ih =>
    intro c
    rw [List.foldl_cons, ih, contains_insert, Bool.or_eq_true, decide_eq_true_eq, List.map_cons,
      List.mem_cons, or_assoc, or_left_comm]

/-- A list puts something under each of its names, and under no other. -/
theorem contains_ofList {entries : List (String × α)} :
    (ofList entries).contains name = true ↔ name ∈ entries.map Prod.fst := by
  refine contains_foldl_insert.trans (or_iff_right ?_)
  exact Bool.false_ne_true

/-! ### Values under names of their own -/

/-- One catalog has what another one has, and the values of a list, each under its name. -/
def Gains (nameOf : α → String) (c : Catalog α) (added : List α) (result : Catalog α) : Prop :=
  ∀ name value, result.get? name = some value ↔
    c.get? name = some value ∨ value ∈ added ∧ nameOf value = name

theorem Gains.nil {nameOf : α → String} : Gains nameOf c [] c := by
  intro name value
  simp

/-- A value under a new name replaces nothing. -/
theorem Gains.cons {nameOf : α → String} {rest : List α} {result : Catalog α}
    (hfresh : c.contains (nameOf value) = false)
    (h : Gains nameOf (c.insert (nameOf value) value) rest result) :
    Gains nameOf c (value :: rest) result := by
  intro name found
  have hnone : c.get? (nameOf value) = none := by simpa [contains] using hfresh
  rw [h, get?_insert, List.mem_cons]
  by_cases hname : name = nameOf value
  · subst hname
    rw [if_pos rfl, hnone]
    constructor
    · rintro (hfound | ⟨hrest, hname⟩)
      · obtain rfl := Option.some.inj hfound
        exact .inr ⟨.inl rfl, rfl⟩
      · exact .inr ⟨.inr hrest, hname⟩
    · rintro (hfound | ⟨rfl | hrest, hname⟩)
      · cases hfound
      · exact .inl rfl
      · exact .inr ⟨hrest, hname⟩
  · rw [if_neg hname]
    constructor
    · rintro (hfound | ⟨hrest, hname⟩)
      · exact .inl hfound
      · exact .inr ⟨.inr hrest, hname⟩
    · rintro (hfound | ⟨rfl | hrest, rfl⟩)
      · exact .inl hfound
      · exact absurd rfl hname
      · exact .inr ⟨hrest, rfl⟩

/-- **What was added to an empty catalog is all that it lists**, each value once. -/
theorem Gains.values_perm {nameOf : α → String} {added : List α} {result : Catalog α}
    (h : Gains nameOf .empty added result) (hdistinct : (added.map nameOf).Nodup) :
    result.values.Perm added := by
  have hget : ∀ name value,
      result.get? name = some value ↔ value ∈ added ∧ nameOf value = name := by
    intro name value
    exact (h name value).trans (or_iff_right nofun)
  have hadded : added.Nodup := by
    refine List.Pairwise.of_map nameOf ?_ hdistinct
    intro value other hne hsame
    exact hne (congrArg nameOf hsame)
  have hvalues : result.values.Nodup := by
    rw [values, List.Nodup, List.pairwise_map]
    refine result.increasing.imp_of_mem fun {first second} hfirst hsecond hlt hsame => ?_
    -- one value stands under one name only
    have hname := ((hget _ _).1 (get?_eq_some_iff.2 hfirst)).2
    have hname' := ((hget _ _).1 (get?_eq_some_iff.2 hsecond)).2
    rw [← hname, ← hname', hsame] at hlt
    exact String.lt_irrefl _ hlt
  refine (List.perm_ext_iff_of_nodup hvalues hadded).2 fun value => ?_
  rw [mem_values_iff]
  constructor
  · rintro ⟨name, hvalue⟩
    exact ((hget name value).1 hvalue).1
  · intro hvalue
    exact ⟨nameOf value, (hget _ value).2 ⟨hvalue, rfl⟩⟩

/-- Values have names that are neither taken in a catalog nor repeated. -/
def Fresh (nameOf : α → String) (c : Catalog α) (added : List α) : Prop :=
  (∀ value ∈ added, c.contains (nameOf value) = false) ∧ (added.map nameOf).Nodup

theorem fresh_nil {nameOf : α → String} : Fresh nameOf c [] := ⟨nofun, .nil⟩

/-- Nothing is taken in an empty catalog. -/
theorem fresh_empty_iff {nameOf : α → String} {added : List α} :
    Fresh nameOf .empty added ↔ (added.map nameOf).Nodup :=
  and_iff_right fun _ _ => rfl

/-- Values can be added if the first one can, and the others can after it. -/
theorem fresh_cons_iff {nameOf : α → String} {rest : List α} :
    Fresh nameOf c (value :: rest) ↔
      c.contains (nameOf value) = false ∧ Fresh nameOf (c.insert (nameOf value) value) rest := by
  have hlater : ∀ other, (c.insert (nameOf value) value).contains (nameOf other) = false ↔
      nameOf other ≠ nameOf value ∧ c.contains (nameOf other) = false := by
    intro other
    rw [contains_insert, Bool.or_eq_false_iff, decide_eq_false_iff_not]
  unfold Fresh
  rw [List.forall_mem_cons, List.map_cons, List.nodup_cons, List.mem_map]
  constructor
  · rintro ⟨⟨hfirst, hrest⟩, hnot, hnodup⟩
    refine ⟨hfirst, fun other hother => (hlater other).2 ⟨?_, hrest other hother⟩, hnodup⟩
    intro hsame
    exact hnot ⟨other, hother, hsame⟩
  · rintro ⟨hfirst, hrest, hnodup⟩
    refine ⟨⟨hfirst, fun other hother => ((hlater other).1 (hrest other hother)).2⟩, ?_, hnodup⟩
    rintro ⟨other, hother, hsame⟩
    exact ((hlater other).1 (hrest other hother)).1 hsame

end Criteria.Catalog
