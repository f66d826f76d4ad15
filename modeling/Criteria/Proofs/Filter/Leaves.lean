import Criteria.Proofs.Filter.Accepted
import Criteria.Proofs.Json.Inside

/-!
# The leaves of an accepted document

Whatever the reader drops, moves or unwraps, it never makes up a leaf: each leaf of the tree was
read from one operator of one field, and so it passed the checks of `readLeaf`. What can be said of
all accepted documents leaf by leaf follows from this, without a further look at the combinators.

* `Filter.leaves` — the leaves of a tree from left to right;
* `leaves_allOf`, `flatMap_leaves_collapseAll`, `flatMap_leaves_collapseAny_sublist` — what becomes
  of the leaves when combinators are collapsed;
* `ReadFrom` — a leaf was read from an operator inside a document;
* `readFrom_of_read` — all leaves of an accepted document were;
* `Checked`, `checked_of_read` — what the reader has checked of them.
-/

namespace Criteria.Filter

/-! ### Leaves -/

mutual

/-- The leaves of a filter, from left to right. -/
def leaves : Filter → List Filter
  | .all parts => leavesAll parts
  | .any parts => leavesAll parts
  | .not part => leaves part
  | .field name op operand => [.field name op operand]
  | .custom name key operand => [.custom name key operand]

/-- The leaves of filters in turn. -/
def leavesAll : List Filter → List Filter
  | [] => []
  | part :: parts => leaves part ++ leavesAll parts

end

@[simp] theorem leavesAll_eq_flatMap (parts : List Filter) :
    leavesAll parts = parts.flatMap leaves := by
  induction parts with
  | nil => rfl
  | cons part parts ih => rw [leavesAll, ih, List.flatMap_cons]

@[simp] theorem leaves_all (parts : List Filter) : leaves (.all parts) = parts.flatMap leaves := by
  rw [leaves, leavesAll_eq_flatMap]

@[simp] theorem leaves_any (parts : List Filter) : leaves (.any parts) = parts.flatMap leaves := by
  rw [leaves, leavesAll_eq_flatMap]

@[simp] theorem leaves_not (part : Filter) : leaves (.not part) = leaves part := by rw [leaves]

@[simp] theorem leaves_field (name : String) (op : Operator) (operand : Json) :
    leaves (.field name op operand) = [.field name op operand] := by rw [leaves]

@[simp] theorem leaves_custom (name key : String) (operand : Json) :
    leaves (.custom name key operand) = [.custom name key operand] := by rw [leaves]

/-- A filter that constrains nothing has no leaves. -/
theorem leaves_eq_nil_of_isIdentity {filter : Filter} (h : filter.isIdentity = true) :
    filter.leaves = [] := by
  rw [isIdentity_iff.1 h, identity, leaves_all, List.flatMap_nil]

/-! ### Collapsing -/

theorem leaves_allOf (parts : List Filter) : (allOf parts).leaves = parts.flatMap leaves := by
  match parts with
  | [] => rw [allOf, identity, leaves_all]
  | [part] => rw [allOf, List.flatMap_cons, List.flatMap_nil, List.append_nil]
  | part :: next :: rest => exact leaves_all (part :: next :: rest)

/-- A combinator has the leaves of its parts, also where it is left out. -/
theorem flatMap_leaves_collapse {combine : List Filter → Filter}
    (h : ∀ parts, (combine parts).leaves = parts.flatMap leaves) (parts : List Filter) :
    (collapse combine parts).flatMap leaves = parts.flatMap leaves := by
  match parts with
  | [] => rfl
  | [part] => rfl
  | part :: next :: rest =>
    change [combine (part :: next :: rest)].flatMap leaves = _
    rw [List.flatMap_cons, List.flatMap_nil, List.append_nil, h]

/-- `_and` keeps all leaves: the parts it drops have none. -/
theorem flatMap_leaves_collapseAll (parts : List Filter) :
    (collapseAll parts).flatMap leaves = parts.flatMap leaves := by
  rw [collapseAll, flatMap_leaves_collapse leaves_all]
  induction parts with
  | nil => rfl
  | cons part parts ih =>
    by_cases hidentity : part.isIdentity = true
    · rw [List.filter_cons_of_neg (by simp [hidentity]), List.flatMap_cons,
        leaves_eq_nil_of_isIdentity hidentity, ih, List.nil_append]
    · rw [List.filter_cons_of_pos (by simpa using hidentity), List.flatMap_cons, List.flatMap_cons,
        ih]

/-- `_or` keeps all leaves or none. -/
theorem flatMap_leaves_collapseAny_sublist (parts : List Filter) :
    ((collapseAny parts).flatMap leaves).Sublist (parts.flatMap leaves) := by
  unfold collapseAny
  split
  · exact List.nil_sublist _
  · have hleaves := flatMap_leaves_collapse leaves_any parts
    exact hleaves ▸ List.Sublist.refl _

/-! ### What the reader checks -/

variable {scope : Scope}

/-- A key that is none of the combinators, so that it is read as a field. -/
def IsFieldKey (key : String) : Prop := key ≠ "_and" ∧ key ≠ "_or" ∧ key ≠ "_not"

/-- Custom filters are looked up by canonical keys. -/
theorem hasCustom_canonicalKey (name key : String) :
    scope.hasCustom name (CustomFilters.canonicalKey key) = scope.hasCustom name key := by
  unfold Scope.hasCustom CustomFilters.contains CustomFilters.get?
  rw [CustomFilters.canonicalKey_canonicalKey]

/-- What the reader has checked of a leaf. A built-in operator is not shadowed by a custom one, and
a custom operator is registered for its field. -/
inductive Checked (scope : Scope) : Filter → Prop
  | field {name : String} {op : Operator} {operand : Json} {declared : Field}
      (isKey : IsFieldKey name) (isDeclared : scope.field? name = some declared)
      (filterable : declared.filterable = true)
      (unshadowed : scope.hasCustom name op.key = false)
      (legal : scope.registry.isLegal declared.kind scope.adapter op = true)
      (check : Operand.check scope.registry scope.limits declared op operand = .ok ()) :
    Checked scope (.field name op operand)
  | custom {name key : String} {operand : Json} (isKey : IsFieldKey name)
      (registered : scope.hasCustom name key = true) :
    Checked scope (.custom name (CustomFilters.canonicalKey key) operand)

theorem checked_of_readLeaf {name key : String} {operand : Json} {leaf : Filter}
    (hname : IsFieldKey name)
    (h : readLeaf scope name (scope.field? name) key operand = .ok leaf) : Checked scope leaf := by
  rcases readLeaf_eq_ok h with
    ⟨hcustom, rfl⟩ | ⟨hcustom, declared, op, hdeclared, hfilterable, hkey, hlegal, hcheck, rfl⟩
  · exact .custom hname hcustom
  · refine .field hname hdeclared hfilterable ?_ hlegal hcheck
    -- the operator has the canonical form of the key that was written
    rw [← hcustom, ← hasCustom_canonicalKey name key, CustomFilters.canonicalKey_of_ofKey? hkey]

/-- A custom leaf was checked if it has the key of a registered operator, underscore included. -/
theorem checked_custom_iff {name key : String} {operand : Json} :
    Checked scope (.custom name key operand) ↔
      IsFieldKey name ∧ (∃ rest, key.toList = '_' :: rest) ∧ scope.hasCustom name key = true := by
  constructor
  · intro h
    generalize hcustom : Filter.custom name key operand = leaf at h
    cases h with
    | field => cases hcustom
    | @custom _ written _ isKey registered =>
      obtain ⟨rfl, rfl, rfl⟩ := Filter.custom.inj hcustom
      refine ⟨isKey, CustomFilters.exists_toList_canonicalKey written, ?_⟩
      rw [hasCustom_canonicalKey]
      exact registered
  · rintro ⟨isKey, ⟨rest, hrest⟩, registered⟩
    rw [← CustomFilters.canonicalKey_of_toList hrest]
    exact .custom isKey registered

/-- A leaf was read from one operator of a field inside a document. -/
def ReadFrom (scope : Scope) (document : Json) (leaf : Filter) : Prop :=
  ∃ name key operand, IsFieldKey name ∧ operand.Inside document ∧
    readLeaf scope name (scope.field? name) key operand = .ok leaf

theorem ReadFrom.of_inside {part document : Json} {leaf : Filter} (h : ReadFrom scope part leaf)
    (hpart : part.Inside document) : ReadFrom scope document leaf := by
  obtain ⟨name, key, operand, hname, hoperand, hread⟩ := h
  exact ⟨name, key, operand, hname, hoperand.trans hpart, hread⟩

theorem ReadFrom.checked {document : Json} {leaf : Filter} (h : ReadFrom scope document leaf) :
    Checked scope leaf := by
  obtain ⟨name, key, operand, hname, -, hread⟩ := h
  exact checked_of_readLeaf hname hread

/-- A built-in leaf has the operand it was read from. -/
theorem ReadFrom.operand_inside {document : Json} {name : String} {op : Operator} {operand : Json}
    (h : ReadFrom scope document (.field name op operand)) : operand.Inside document := by
  obtain ⟨_, key, found, -, hfound, hread⟩ := h
  rcases readLeaf_eq_ok hread with ⟨-, hleaf⟩ | ⟨-, _, _, -, -, -, -, -, hleaf⟩
  · cases hleaf
  · cases hleaf
    exact hfound

/-- A field adds leaves that were read from its operators and nothing else. -/
theorem readFrom_of_readOperators {name : String} {operators : List (String × Json)}
    (hname : IsFieldKey name) :
    ∀ {used used' : Nat} {parts : List Filter},
      readOperators scope name (scope.field? name) used operators = .ok (parts, used') →
        ∀ leaf ∈ parts.flatMap leaves, ∃ entry ∈ operators, ReadFrom scope entry.2 leaf := by
  induction operators with
  | nil =>
    intro used used' parts h
    obtain ⟨rfl, rfl⟩ := Prod.mk.inj (Except.ok.inj h)
    simp
  | cons entry rest ih =>
    intro used used' parts h leaf hleaf
    obtain ⟨key, operand⟩ := entry
    obtain ⟨-, first, others, hfirst, hrest, rfl⟩ := readOperators_cons_eq_ok h
    rw [List.flatMap_cons] at hleaf
    rcases List.mem_append.1 hleaf with hleaf | hleaf
    · -- what was read is a leaf, so it is the only leaf of itself
      have heq : leaf = first := by
        cases checked_of_readLeaf hname hfirst <;> simpa using hleaf
      rw [heq]
      exact ⟨_, List.mem_cons_self, name, key, operand, hname, .self, hfirst⟩
    · obtain ⟨found, hfound, hread⟩ := ih hrest leaf hleaf
      exact ⟨found, List.mem_cons_of_mem _ hfound, hread⟩

/-! ### Objects, members and items -/

mutual

theorem readFrom_of_readObject {depth used used' : Nat} {path : Path} {filter : Filter}
    (document : Json) (h : readObject scope depth path used document = .ok (filter, used')) :
    ∀ leaf ∈ filter.leaves, ReadFrom scope document leaf := by
  obtain ⟨-, members, parts, rfl, hread, rfl⟩ := readObject_eq_ok h
  rw [leaves_allOf]
  intro leaf hleaf
  obtain ⟨member, hmember, hfrom⟩ := readFrom_of_readMembers members hread leaf hleaf
  exact hfrom.of_inside (.member hmember .self)
termination_by sizeOf document

theorem readFrom_of_readMembers {depth used used' : Nat} {path : Path} {parts : List Filter}
    (members : List (String × Json))
    (h : readMembers scope depth path used members = .ok (parts, used')) :
    ∀ leaf ∈ parts.flatMap leaves, ∃ member ∈ members, ReadFrom scope member.2 leaf := by
  match members with
  | [] =>
    obtain ⟨rfl, rfl⟩ := Prod.mk.inj (Except.ok.inj h)
    simp
  | (key, value) :: rest =>
    obtain ⟨own, between, others, hown, hrest, rfl⟩ := readMembers_cons_eq_ok h
    intro leaf hleaf
    rw [List.flatMap_append] at hleaf
    rcases List.mem_append.1 hleaf with hleaf | hleaf
    · refine ⟨(key, value), List.mem_cons_self, ?_⟩
      -- whatever the member adds has no leaves but those that were read below it
      cases hown with
      | @all items _ _ hread =>
        rw [flatMap_leaves_collapseAll] at hleaf
        obtain ⟨item, hitem, hfrom⟩ := readFrom_of_readItems items hread leaf hleaf
        exact hfrom.of_inside (.item hitem .self)
      | @any items _ _ hread =>
        have hkept := (flatMap_leaves_collapseAny_sublist _).subset hleaf
        obtain ⟨item, hitem, hfrom⟩ := readFrom_of_readItems items hread leaf hkept
        exact hfrom.of_inside (.item hitem .self)
      | not hread =>
        rw [List.flatMap_singleton, leaves_not] at hleaf
        exact readFrom_of_readObject value hread leaf hleaf
      | field hkey hread =>
        obtain ⟨-, operators, -, rfl, hoperators⟩ := readField_eq_ok hread
        obtain ⟨entry, hentry, hfrom⟩ := readFrom_of_readOperators hkey hoperators leaf hleaf
        exact hfrom.of_inside (.member hentry .self)
    · obtain ⟨member, hmember, hfrom⟩ := readFrom_of_readMembers rest hrest leaf hleaf
      exact ⟨member, List.mem_cons_of_mem _ hmember, hfrom⟩
termination_by sizeOf members

theorem readFrom_of_readItems {depth used used' index : Nat} {path : Path} {parts : List Filter}
    (items : List Json) (h : readItems scope depth path index used items = .ok (parts, used')) :
    ∀ leaf ∈ parts.flatMap leaves, ∃ item ∈ items, ReadFrom scope item leaf := by
  match items with
  | [] =>
    obtain ⟨rfl, rfl⟩ := Prod.mk.inj (Except.ok.inj h)
    simp
  | item :: items =>
    obtain ⟨part, between, others, hpart, hrest, rfl⟩ := readItems_cons_eq_ok h
    intro leaf hleaf
    rw [List.flatMap_cons] at hleaf
    rcases List.mem_append.1 hleaf with hleaf | hleaf
    · exact ⟨item, List.mem_cons_self, readFrom_of_readObject item hpart leaf hleaf⟩
    · obtain ⟨found, hfound, hfrom⟩ := readFrom_of_readItems items hrest leaf hleaf
      exact ⟨found, List.mem_cons_of_mem _ hfound, hfrom⟩
termination_by sizeOf items

end

/-- Every leaf of an accepted document was read from an operator inside of it. -/
theorem readFrom_of_read {document : Json} {filter : Filter}
    (h : read scope document = .ok filter) :
    ∀ leaf ∈ filter.leaves, ReadFrom scope document leaf := by
  rcases read_eq_ok h with ⟨rfl, rfl⟩ | ⟨used', hread⟩
  · simp [identity]
  · exact readFrom_of_readObject document hread

/-- **Every leaf of an accepted document was checked.** -/
theorem checked_of_read {document : Json} {filter : Filter} (h : read scope document = .ok filter) :
    ∀ leaf ∈ filter.leaves, Checked scope leaf :=
  fun leaf hleaf => (readFrom_of_read h leaf hleaf).checked

end Criteria.Filter
