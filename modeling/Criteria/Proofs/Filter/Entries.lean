import Criteria.Proofs.Filter.Canonical
import Criteria.Proofs.Filter.Grammar
import Mathlib.Data.List.Forall2

/-!
# What becomes of the operators of a document

A document has operator entries, in the order in which the client wrote them, and the tree that is
read has leaves. Each leaf comes from one entry, leaves come in the order of their entries, and no
entry is lost but those below an `_or` that some branch makes true in any case.

* `Entry`, `entries` — the operator entries of a document, each with the disjunctions around it;
* `Entry.isSpare` — whether one of these disjunctions has a branch that constrains nothing;
* `Entry.Gives` — the leaf that an entry becomes;
* `Yields` — the other entries become the leaves, one after the other;
* `read_canonical` — the tree of an accepted document: its shape, and where its leaves are from.
-/

namespace Criteria.Filter

/-- An operator entry of a document, with the lists of the disjunctions it lies in, the outermost
first. -/
structure Entry where
  /-- The field. -/
  name : String
  /-- The key of the operator, as it is written. -/
  key : String
  /-- The operand. -/
  operand : Json
  /-- The lists of the disjunctions around it. -/
  disjunctions : List (List Json)

namespace Entry

/-- The entry inside of one more disjunction. -/
def within (items : List Json) (entry : Entry) : Entry :=
  { entry with disjunctions := items :: entry.disjunctions }

/-- Whether an entry lies in a disjunction with a branch that constrains nothing. -/
def isSpare (entry : Entry) : Bool := entry.disjunctions.any anyVacuous

@[simp] theorem isSpare_within (items : List Json) (entry : Entry) :
    (entry.within items).isSpare = (anyVacuous items || entry.isSpare) := rfl

/-- The leaf that an entry becomes: a custom operator goes before a built-in one of its key. -/
inductive Gives (scope : Scope) (entry : Entry) : Filter → Prop
  | custom (registered : scope.hasCustom entry.name entry.key = true) :
    Gives scope entry
      (.custom entry.name (CustomFilters.canonicalKey entry.key) entry.operand)
  | builtin {op : Operator} (unshadowed : scope.hasCustom entry.name entry.key = false)
      (isKey : Operator.ofKey? entry.key = some op) :
    Gives scope entry (.field entry.name op entry.operand)

/-- What is around an entry does not change what it becomes. -/
theorem Gives.within {scope : Scope} {entry : Entry} {leaf : Filter} (h : entry.Gives scope leaf)
    (items : List Json) : (entry.within items).Gives scope leaf := by
  cases h with
  | custom registered => exact .custom registered
  | builtin unshadowed isKey => exact .builtin unshadowed isKey

end Entry

/-- The operator entries of a field. -/
def fieldEntries (name : String) (operators : List (String × Json)) : List Entry :=
  operators.map fun operator => ⟨name, operator.1, operator.2, []⟩

mutual

/-- The operator entries of an object, in the order of the document. -/
def entries : Json → List Entry
  | .object members => membersEntries members
  | _ => []

/-- The operator entries of a member. -/
def memberEntries (key : String) : Json → List Entry
  | .array items =>
    if key = "_or" then (itemsEntries items).map (Entry.within items) else itemsEntries items
  | .object members => if key = "_not" then membersEntries members else fieldEntries key members
  | _ => []

/-- The operator entries of members. -/
def membersEntries : List (String × Json) → List Entry
  | [] => []
  | (key, value) :: rest => memberEntries key value ++ membersEntries rest

/-- The operator entries of items. -/
def itemsEntries : List Json → List Entry
  | [] => []
  | item :: items => entries item ++ itemsEntries items

end

/-- The second branch is spare, for the first one is true in any case. -/
example :
    (entries (.object [("_or", .array [.object [],
      .object [("name", .object [("_eq", .string "Ada"), ("_is_null", .bool false)])]])])).map
        (fun entry => (entry.key, entry.isSpare)) = [("_eq", true), ("_is_null", true)] :=
  rfl

/-! ### Every operator is an entry -/

mutual

/-- The operators that count are the entries. -/
theorem length_entries (document : Json) : (entries document).length = operatorCount document := by
  match document with
  | .object members =>
    rw [entries, operatorCount]
    exact length_membersEntries members
  | .null | .bool _ | .number _ | .string _ | .array _ => rfl
termination_by sizeOf document

theorem length_memberEntries (key : String) (value : Json) :
    (memberEntries key value).length = memberCount key value := by
  match value with
  | .array items =>
    rw [memberEntries, memberCount, ← length_itemsEntries items]
    split
    · exact List.length_map _
    · rfl
  | .object members =>
    rw [memberEntries, memberCount, ← length_membersEntries members]
    split
    · rfl
    · exact List.length_map _
  | .null | .bool _ | .number _ | .string _ => rfl
termination_by sizeOf value

theorem length_membersEntries (members : List (String × Json)) :
    (membersEntries members).length = membersCount members := by
  match members with
  | [] => rfl
  | (key, value) :: rest =>
    rw [membersEntries, membersCount, List.length_append, length_memberEntries key value,
      length_membersEntries rest]
termination_by sizeOf members

theorem length_itemsEntries (items : List Json) :
    (itemsEntries items).length = itemsCount items := by
  match items with
  | [] => rfl
  | item :: items =>
    rw [itemsEntries, itemsCount, List.length_append, length_entries item,
      length_itemsEntries items]
termination_by sizeOf items

end

/-! ### Entries and leaves -/

variable {scope : Scope}

/-- The entries that are not spare become the leaves, one after the other. -/
def Yields (scope : Scope) (entries : List Entry) (leaves : List Filter) : Prop :=
  List.Forall₂ (Entry.Gives scope) (entries.filter fun entry => !entry.isSpare) leaves

namespace Yields

variable {given others : List Entry} {found more : List Filter}

theorem nil : Yields scope [] [] := List.Forall₂.nil

theorem append (h : Yields scope given found) (hothers : Yields scope others more) :
    Yields scope (given ++ others) (found ++ more) := by
  unfold Yields
  rw [List.filter_append]
  exact List.rel_append h hothers

theorem cons {entry : Entry} {leaf : Filter} (hspare : entry.isSpare = false)
    (hgives : entry.Gives scope leaf) (h : Yields scope given found) :
    Yields scope (entry :: given) (leaf :: found) := by
  unfold Yields
  rw [List.filter_cons_of_pos (by simp [hspare])]
  exact .cons hgives h

/-- Inside of a disjunction that constrains, entries become what they become without it. -/
theorem within {items : List Json} (hitems : anyVacuous items = false)
    (h : Yields scope given found) : Yields scope (given.map (Entry.within items)) found := by
  have hkept : (given.map (Entry.within items)).filter (fun entry => !entry.isSpare) =
      (given.filter fun entry => !entry.isSpare).map (Entry.within items) := by
    rw [List.filter_map]
    congr 1
    refine List.filter_congr fun entry _ => ?_
    rw [Function.comp_apply, Entry.isSpare_within, hitems, Bool.false_or]
  unfold Yields
  rw [hkept, List.forall₂_map_left_iff]
  exact h.imp fun entry leaf hgives => hgives.within items

/-- Inside of a disjunction that constrains nothing all entries are spare. -/
theorem within_vacuous {items : List Json} (hitems : anyVacuous items = true) :
    Yields scope (given.map (Entry.within items)) [] := by
  have hnone : (given.map (Entry.within items)).filter (fun entry => !entry.isSpare) = [] := by
    refine List.filter_eq_nil_iff.2 fun entry hentry => ?_
    obtain ⟨inner, -, rfl⟩ := List.mem_map.1 hentry
    rw [Entry.isSpare_within, hitems, Bool.true_or]
    exact Bool.false_ne_true
  unfold Yields
  rw [hnone]
  exact .nil

end Yields

/-- An operator is read as the leaf that its entry becomes. -/
theorem gives_of_readLeaf {name key : String} {declared : Option Field} {operand : Json}
    {leaf : Filter} (h : readLeaf scope name declared key operand = .ok leaf) :
    Entry.Gives scope ⟨name, key, operand, []⟩ leaf ∧ leaf.leaves = [leaf] := by
  rcases readLeaf_eq_ok h with ⟨hcustom, rfl⟩ | ⟨hcustom, _, op, -, -, hkey, -, -, rfl⟩
  · exact ⟨.custom hcustom, leaves_custom _ _ _⟩
  · exact ⟨.builtin hcustom hkey, leaves_field _ _ _⟩

theorem yields_of_readOperators {name : String} {declared : Option Field}
    {operators : List (String × Json)} :
    ∀ {used used' : Nat} {parts : List Filter},
      readOperators scope name declared used operators = .ok (parts, used') →
        Yields scope (fieldEntries name operators) (parts.flatMap leaves) := by
  induction operators with
  | nil =>
    intro used used' parts h
    obtain ⟨rfl, rfl⟩ := Prod.mk.inj (Except.ok.inj h)
    exact .nil
  | cons entry rest ih =>
    intro used used' parts h
    obtain ⟨-, leaf, others, hleaf, hrest, rfl⟩ := readOperators_cons_eq_ok h
    obtain ⟨hgives, hleaves⟩ := gives_of_readLeaf hleaf
    rw [List.flatMap_cons, hleaves]
    exact .cons rfl hgives (ih hrest)

mutual

/-- **The leaves of what is read are the entries that are not spare**, in their order. -/
theorem yields_of_readObject {depth used used' : Nat} {path : Path} {filter : Filter}
    (document : Json) (h : readObject scope depth path used document = .ok (filter, used')) :
    Yields scope (entries document) filter.leaves := by
  obtain ⟨-, members, parts, rfl, hread, rfl⟩ := readObject_eq_ok h
  rw [entries, leaves_allOf]
  exact yields_of_readMembers members hread
termination_by sizeOf document

theorem yields_of_readMembers {depth used used' : Nat} {path : Path} {parts : List Filter}
    (members : List (String × Json))
    (h : readMembers scope depth path used members = .ok (parts, used')) :
    Yields scope (membersEntries members) (parts.flatMap leaves) := by
  match members with
  | [] =>
    obtain ⟨rfl, rfl⟩ := Prod.mk.inj (Except.ok.inj h)
    exact .nil
  | (key, value) :: rest =>
    obtain ⟨own, between, others, hown, hrest, rfl⟩ := readMembers_cons_eq_ok h
    rw [membersEntries, List.flatMap_append]
    refine .append ?_ (yields_of_readMembers rest hrest)
    -- unwrapping a combinator keeps the leaves, so only a dropped disjunction loses any
    cases hown with
    | @all items parts _ hread =>
      rw [memberEntries, if_neg (by decide), flatMap_leaves_collapseAll]
      exact yields_of_readItems items hread
    | @any items parts _ hread =>
      -- The entries of the items are kept together or left out together, as the branches that were
      -- read tell. What they are read as constrains nothing exactly if the documents do.
      obtain ⟨-, -, hany⟩ := isIdentity_of_readItems items hread
      rw [memberEntries, if_pos rfl, collapseAny]
      split
      · next hidentity => exact .within_vacuous (hany ▸ hidentity)
      · next hidentity =>
        rw [flatMap_leaves_collapse leaves_any]
        refine .within ?_ (yields_of_readItems items hread)
        exact hany ▸ Bool.eq_false_iff.2 hidentity
    | @not value part _ hread =>
      have hpart := yields_of_readObject value hread
      obtain ⟨-, members, -, rfl, -⟩ := readObject_eq_ok hread
      rw [memberEntries, if_pos rfl, List.flatMap_singleton, leaves_not]
      rw [entries] at hpart
      exact hpart
    | field hkey hread =>
      obtain ⟨-, operators, -, rfl, hoperators⟩ := readField_eq_ok hread
      rw [memberEntries, if_neg hkey.2.2]
      exact yields_of_readOperators hoperators
termination_by sizeOf members

theorem yields_of_readItems {depth used used' index : Nat} {path : Path} {parts : List Filter}
    (items : List Json)
    (h : readItems scope depth path index used items = .ok (parts, used')) :
    Yields scope (itemsEntries items) (parts.flatMap leaves) := by
  match items with
  | [] =>
    obtain ⟨rfl, rfl⟩ := Prod.mk.inj (Except.ok.inj h)
    exact .nil
  | item :: items =>
    obtain ⟨part, between, others, hpart, hrest, rfl⟩ := readItems_cons_eq_ok h
    rw [itemsEntries, List.flatMap_cons]
    exact .append (yields_of_readObject item hpart) (yields_of_readItems items hrest)
termination_by sizeOf items

end

theorem yields_of_read {document : Json} {filter : Filter} (h : read scope document = .ok filter) :
    Yields scope (entries document) filter.leaves := by
  rcases read_eq_ok h with ⟨rfl, rfl⟩ | ⟨used', hread⟩
  · exact .nil
  · exact yields_of_readObject document hread

/-! ### The tree of a document -/

/-- **What an accepted document is read as.** The tree is canonical, or the identity, which it is
exactly if the document constrains nothing. Custom leaves have a registered operator whose key
starts with an underscore; built-in ones have a legal operator on a declared field that can be
filtered by, with an operand that passed its check, and nothing shadows them. The leaves are the
operator entries of the document in their order, without those that lie in an `_or` with a branch
that constrains nothing. -/
theorem read_canonical {document : Json} {filter : Filter} (h : read scope document = .ok filter) :
    IsCanonical filter ∧ (filter = identity ↔ isVacuous document = true) ∧
    (∀ name key operand, .custom name key operand ∈ filter.leaves →
      (∃ rest, key.toList = '_' :: rest) ∧ scope.hasCustom name key = true) ∧
    (∀ name op operand, .field name op operand ∈ filter.leaves →
      ∃ declared, scope.field? name = some declared ∧ declared.filterable = true ∧
        scope.registry.isLegal declared.kind scope.adapter op = true ∧
        Operand.check scope.registry scope.limits declared op operand = .ok () ∧
        scope.hasCustom name op.key = false) ∧
    Yields scope (entries document) filter.leaves := by
  refine ⟨canonical_of_read h, ?_, ?_, ?_, yields_of_read h⟩
  · rw [← isIdentity_iff, isIdentity_of_read h]
  · intro name key operand hleaf
    -- the key of the leaf is the canonical form of the one that was written
    generalize hcustom : Filter.custom name key operand = leaf at hleaf
    cases checked_of_read h leaf hleaf with
    | field => cases hcustom
    | @custom _ written _ _ registered =>
      obtain ⟨rfl, rfl, rfl⟩ := Filter.custom.inj hcustom
      refine ⟨CustomFilters.exists_toList_canonicalKey written, ?_⟩
      rw [Scope.hasCustom, CustomFilters.contains, CustomFilters.get?,
        CustomFilters.canonicalKey_canonicalKey]
      exact registered
  · intro name op operand hleaf
    cases checked_of_read h _ hleaf with
    | field _ isDeclared filterable unshadowed legal check =>
      exact ⟨_, isDeclared, filterable, legal, check, unshadowed⟩

/-- The empty object in `_and` is dropped and the rest unwrapped; the `_or` has a branch that
constrains nothing, so that its entry is spare; the empty object below `_not` stays. -/
theorem read_canonical_dropped :
    let scope : Scope :=
      ⟨"User", ⟨.ofList [("User", ⟨"User", [.declare "age" .integer]⟩)]⟩, .empty, .sql .sqlite,
        CustomFilters.empty.register "User" "name" "sounds_like" fun _ => .ok (.sql []), {}⟩
    let unwrapped : Json := .array [.object [], .object [("age", .object [("_gt", .int 1)])]]
    let spare : Json :=
      .array [.object [("age", .object [("_lt", .int 5)])], .object [("_and", .array [])]]
    let kept : Json :=
      .array [.object [("name", .object [("sounds_like", .null)])], .object [("_not", .object [])]]
    let document : Json :=
      .object [("_and", unwrapped), ("_or", spare), ("_not", .object [("_or", kept)])]
    let filter : Filter :=
      .all [.field "age" .gt (.int 1), .not (.any [.custom "name" "_sounds_like" .null,
        .not identity])]
    read scope document = .ok filter ∧ IsCanonical filter ∧ isVacuous document = false ∧
      scope.hasCustom "name" "_sounds_like" = true ∧
      (∃ declared, scope.field? "age" = some declared ∧
        scope.registry.isLegal declared.kind scope.adapter .gt = true) ∧
      Yields scope (entries document) filter.leaves ∧
      (entries document).map (fun entry => (entry.key, entry.isSpare)) =
        [("_gt", false), ("_lt", true), ("sounds_like", false)] := by
  intro scope unwrapped spare kept document filter
  have hread : read scope document = .ok filter := rfl
  obtain ⟨hcanonical, hvacuous, hcustom, hfield, hyields⟩ := read_canonical hread
  refine ⟨hread, hcanonical, ?_, ?_, ?_, hyields, rfl⟩
  · -- the tree is not the identity
    have hconstrains : filter.isIdentity = false := rfl
    refine Bool.eq_false_iff.2 fun h => ?_
    rw [hvacuous.2 h] at hconstrains
    cases hconstrains
  · have hleaf : .custom "name" "_sounds_like" .null ∈ filter.leaves := by simp [filter]
    exact (hcustom _ _ _ hleaf).2
  · have hleaf : .field "age" .gt (.int 1) ∈ filter.leaves := by simp [filter]
    obtain ⟨declared, hdeclared, -, hlegal, -⟩ := hfield _ _ _ hleaf
    exact ⟨declared, hdeclared, hlegal⟩

end Criteria.Filter
