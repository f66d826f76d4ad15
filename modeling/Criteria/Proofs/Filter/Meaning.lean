import Criteria.Proofs.Filter.Accepted
import Criteria.Proofs.Truth

/-!
# Reading a filter document keeps its meaning

A filter document has a meaning of its own, before it is read: an object is the conjunction of its
members, `_and` and `_or` are the conjunction and the disjunction of their items, `_not` is the
negation, and a field is the conjunction of its operators. `null` and the empty object are true, and
so is an empty `_or`. The reader builds a tree instead, and on the way it drops parts that constrain
nothing, drops a whole `_or` for the sake of one such part, and lets a single part stand for its
combinator. `eval_of_read` says that none of this changes what the document means.

* `Valuation` — a truth value for every leaf;
* `Filter.eval` — the value of a tree;
* `Filter.meaning` — the value of a document, by recursion on the document alone;
* `eval_of_read` — the two agree in every bounded lattice, whatever its negation.

Dropping is sound because it only ever removes a true part of a conjunction, or a disjunction that
has a true part. Both are equalities of values, so they may stand below any number of negations.
-/

namespace Criteria

/-- A truth value for every leaf of a filter. -/
structure Valuation (α : Type) where
  /-- The value of a built-in operator on a field. -/
  field : String → Operator → Json → α
  /-- The value of a custom operator on a field. -/
  custom : String → String → Json → α

namespace Filter

variable {α : Type} [Lattice α] [BoundedOrder α] [Compl α] (v : Valuation α)

/-! ### The value of a tree -/

mutual

/-- The value of a filter. -/
def eval : Filter → α
  | .all parts => conj (evals parts)
  | .any parts => disj (evals parts)
  | .not part => (eval part)ᶜ
  | .field name op operand => v.field name op operand
  | .custom name key operand => v.custom name key operand

/-- The values of filters in turn. -/
def evals : List Filter → List α
  | [] => []
  | part :: parts => eval part :: evals parts

end

theorem evals_eq_map (parts : List Filter) : evals v parts = parts.map (eval v) := by
  induction parts with
  | nil => rfl
  | cons part parts ih => rw [evals, ih, List.map_cons]

@[simp] theorem eval_all (parts : List Filter) :
    eval v (.all parts) = conj (parts.map (eval v)) := by
  rw [eval, evals_eq_map]

@[simp] theorem eval_any (parts : List Filter) :
    eval v (.any parts) = disj (parts.map (eval v)) := by
  rw [eval, evals_eq_map]

@[simp] theorem eval_not (part : Filter) : eval v (.not part) = (eval v part)ᶜ := by
  rw [eval]

@[simp] theorem eval_identity : eval v identity = ⊤ := by
  rw [identity, eval_all, List.map_nil, conj_nil]

/-! ### The value of a document -/

/-- The meaning of one operator of a field. A registered custom operator goes before a built-in one
of the same key; a key that is neither names no leaf. -/
def entryMeaning (scope : Scope) (name key : String) (operand : Json) : α :=
  if scope.hasCustom name key then v.custom name (CustomFilters.canonicalKey key) operand
  else
    match Operator.ofKey? key with
    | some op => v.field name op operand
    | none => ⊤

mutual

/-- The meaning of a document. `null` is true; what is neither `null` nor an object is no document
and has the value of `null`. -/
def meaning (scope : Scope) : Json → α
  | .object members => conj (memberMeanings scope members)
  | _ => ⊤

/-- The meanings of the members of an object in turn. -/
def memberMeanings (scope : Scope) : List (String × Json) → List α
  | [] => []
  | (key, value) :: rest =>
    (if key = "_and" then
      match value with
      | .array items => conj (itemMeanings scope items)
      | _ => ⊤
    else if key = "_or" then
      match value with
      | .array [] => ⊤
      | .array items => disj (itemMeanings scope items)
      | _ => ⊤
    else if key = "_not" then (meaning scope value)ᶜ
    else
      match value with
      | .object operators => conj (operators.map fun e => entryMeaning v scope key e.1 e.2)
      | _ => ⊤) :: memberMeanings scope rest

/-- The meanings of the items of a list in turn. -/
def itemMeanings (scope : Scope) : List Json → List α
  | [] => []
  | item :: items => meaning scope item :: itemMeanings scope items

end

section Members

variable (scope : Scope) (rest : List (String × Json))

theorem memberMeanings_and (items : List Json) :
    memberMeanings v scope (("_and", .array items) :: rest) =
      conj (itemMeanings v scope items) :: memberMeanings v scope rest := rfl

theorem memberMeanings_or_nil :
    memberMeanings v scope (("_or", .array []) :: rest) =
      ⊤ :: memberMeanings v scope rest := rfl

theorem memberMeanings_or_cons (item : Json) (items : List Json) :
    memberMeanings v scope (("_or", .array (item :: items)) :: rest) =
      disj (itemMeanings v scope (item :: items)) :: memberMeanings v scope rest := rfl

theorem memberMeanings_not (value : Json) :
    memberMeanings v scope (("_not", value) :: rest) =
      (meaning v scope value)ᶜ :: memberMeanings v scope rest := rfl

theorem memberMeanings_field {name : String} (operators : List (String × Json))
    (h : name ≠ "_and" ∧ name ≠ "_or" ∧ name ≠ "_not") :
    memberMeanings v scope ((name, .object operators) :: rest) =
      conj (operators.map fun e => entryMeaning v scope name e.1 e.2) ::
        memberMeanings v scope rest := by
  rw [memberMeanings.eq_def]
  simp only [if_neg h.1, if_neg h.2.1, if_neg h.2.2]

end Members

/-! ### What the reader drops -/

/-- A single part stands for the conjunction of it, and no part for the true filter. -/
theorem eval_allOf (parts : List Filter) :
    eval v (allOf parts) = conj (parts.map (eval v)) := by
  match parts with
  | [] => rw [allOf, eval_identity, List.map_nil, conj_nil]
  | [part] => rw [allOf, List.map_cons, List.map_nil, conj_singleton]
  | part :: next :: rest => exact eval_all v (part :: next :: rest)

/-- `_and` keeps the conjunction of its parts: those it drops are true. -/
theorem conj_collapseAll (parts : List Filter) :
    conj ((collapseAll parts).map (eval v)) = conj (parts.map (eval v)) := by
  have hdropped : ∀ part ∈ parts, (!part.isIdentity) = false → eval v part = ⊤ := by
    intro part _ h
    have hidentity : part = identity := isIdentity_iff.1 (by simpa using h)
    rw [hidentity, eval_identity]
  rw [← conj_map_filter (eval v) (fun part => !part.isIdentity) parts hdropped]
  -- the parts that are kept stand for themselves, or are wrapped if there are several
  unfold collapseAll
  generalize parts.filter (fun part => !part.isIdentity) = kept
  match kept with
  | [] => rw [collapse]
  | [part] => rw [collapse]
  | part :: next :: rest =>
    change conj ([Filter.all (part :: next :: rest)].map (eval v)) = _
    rw [List.map_cons, List.map_nil, conj_singleton, eval_all]

/-- `_or` keeps the disjunction of its parts, of which there is at least one: if it drops them all,
one of them is true. -/
theorem conj_collapseAny {parts : List Filter} (h : parts ≠ []) :
    conj ((collapseAny parts).map (eval v)) = disj (parts.map (eval v)) := by
  unfold collapseAny
  split
  · next hany =>
    obtain ⟨part, hpart, hidentity⟩ := List.any_eq_true.1 hany
    have htrue : (⊤ : α) ∈ parts.map (eval v) := by
      refine List.mem_map.2 ⟨part, hpart, ?_⟩
      rw [isIdentity_iff.1 hidentity, eval_identity]
    rw [disj_eq_top_of_mem htrue, List.map_nil, conj_nil]
  · match parts with
    | [] => exact absurd rfl h
    | [part] => rw [collapse, List.map_cons, List.map_nil, conj_singleton, disj_singleton]
    | part :: next :: rest =>
      change conj ([Filter.any (part :: next :: rest)].map (eval v)) = _
      rw [List.map_cons, List.map_nil, conj_singleton, eval_any]

/-! ### Leaves -/

variable {scope : Scope}

theorem eval_of_readLeaf {name key : String} {declared : Option Field} {operand : Json}
    {leaf : Filter} (h : readLeaf scope name declared key operand = .ok leaf) :
    eval v leaf = entryMeaning v scope name key operand := by
  unfold entryMeaning
  rcases readLeaf_eq_ok h with ⟨hcustom, rfl⟩ | ⟨hcustom, field, op, -, -, hkey, -, -, rfl⟩
  · rw [if_pos hcustom, eval]
  · rw [if_neg (by simp [hcustom]), hkey, eval]

theorem eval_of_readOperators {name : String} {declared : Option Field}
    {operators : List (String × Json)} :
    ∀ {used used' : Nat} {leaves : List Filter},
      readOperators scope name declared used operators = .ok (leaves, used') →
      leaves.map (eval v) = operators.map fun e => entryMeaning v scope name e.1 e.2 := by
  induction operators with
  | nil =>
    intro used used' leaves h
    obtain ⟨rfl, rfl⟩ := Prod.mk.inj (Except.ok.inj h)
    rfl
  | cons entry rest ih =>
    intro used used' leaves h
    obtain ⟨key, operand⟩ := entry
    obtain ⟨-, leaf, others, hleaf, hrest, rfl⟩ := readOperators_cons_eq_ok h
    rw [List.map_cons, List.map_cons, eval_of_readLeaf v hleaf, ih hrest]

/-- A field adds the conjunction of its operators. -/
theorem eval_of_readField {path : Path} {used used' : Nat} {name : String} {value : Json}
    {leaves : List Filter} (h : readField scope path used name value = .ok (leaves, used')) :
    ∃ operators, value = .object operators ∧ leaves.map (eval v) =
      operators.map fun e => entryMeaning v scope name e.1 e.2 := by
  obtain ⟨-, operators, -, rfl, hread⟩ := readField_eq_ok h
  exact ⟨operators, rfl, eval_of_readOperators v hread⟩

/-! ### Objects, members and items -/

mutual

/-- The tree of an object has the meaning of the object. -/
theorem eval_of_readObject {depth used used' : Nat} {path : Path} {filter : Filter}
    (document : Json) (h : readObject scope depth path used document = .ok (filter, used')) :
    eval v filter = meaning v scope document := by
  obtain ⟨-, members, parts, rfl, hread, rfl⟩ := readObject_eq_ok h
  rw [eval_allOf, meaning, conj_of_readMembers members hread]
termination_by sizeOf document

/-- What the members of an object add has the meanings of the members as its conjunction. -/
theorem conj_of_readMembers {depth used used' : Nat} {path : Path} {parts : List Filter}
    (members : List (String × Json))
    (h : readMembers scope depth path used members = .ok (parts, used')) :
    conj (parts.map (eval v)) = conj (memberMeanings v scope members) := by
  match members with
  | [] =>
    obtain ⟨rfl, rfl⟩ := Prod.mk.inj (Except.ok.inj h)
    rfl
  | (key, value) :: rest =>
    obtain ⟨own, between, others, hown, hrest, rfl⟩ := readMembers_cons_eq_ok h
    rw [List.map_append, conj_append, conj_of_readMembers rest hrest]
    -- what is left is that the member adds parts with its meaning as their conjunction
    cases hown with
    | @all items parts _ hread =>
      rw [memberMeanings_and, conj_cons, conj_collapseAll, map_eval_of_readItems items hread]
    | @any items parts _ hread =>
      have hitems := map_eval_of_readItems items hread
      cases items with
      | nil =>
        -- an empty `_or` adds no part at all, and means nothing but true
        obtain ⟨rfl, -⟩ := Prod.mk.inj (Except.ok.inj hread)
        rw [memberMeanings_or_nil, conj_cons]
        rfl
      | cons item items =>
        obtain ⟨part, _, others, -, -, rfl⟩ := readItems_cons_eq_ok hread
        rw [memberMeanings_or_cons, conj_cons, conj_collapseAny v (List.cons_ne_nil _ _), hitems]
    | not hread =>
      rw [memberMeanings_not, conj_cons, List.map_cons, List.map_nil, conj_singleton, eval_not,
        eval_of_readObject value hread]
    | field hother hread =>
      obtain ⟨operators, rfl, hleaves⟩ := eval_of_readField v hread
      rw [memberMeanings_field v scope rest operators hother, conj_cons, hleaves]
termination_by sizeOf members

/-- The items of a list have their meanings one by one. -/
theorem map_eval_of_readItems {depth used used' index : Nat} {path : Path} {parts : List Filter}
    (items : List Json) (h : readItems scope depth path index used items = .ok (parts, used')) :
    parts.map (eval v) = itemMeanings v scope items := by
  match items with
  | [] =>
    obtain ⟨rfl, rfl⟩ := Prod.mk.inj (Except.ok.inj h)
    rfl
  | item :: items =>
    obtain ⟨part, between, others, hpart, hrest, rfl⟩ := readItems_cons_eq_ok h
    rw [List.map_cons, itemMeanings, eval_of_readObject item hpart,
      map_eval_of_readItems items hrest]
termination_by sizeOf items

end

/-- **Reading keeps the meaning.** In every bounded lattice with a negation, the tree of an accepted
document has the meaning of the document. -/
theorem eval_of_read {document : Json} {filter : Filter} (h : read scope document = .ok filter) :
    eval v filter = meaning v scope document := by
  rcases read_eq_ok h with ⟨rfl, rfl⟩ | ⟨used', hread⟩
  · rw [eval_identity, meaning]
    simp
  · exact eval_of_readObject v document hread

/-- **An accepted document and its tree have the same value**, whether leaves are true or false or
may also be unknown. -/
theorem read_meaning {document : Json} {filter : Filter} (h : read scope document = .ok filter) :
    (∀ v : Valuation Bool, eval v filter = meaning v scope document) ∧
    (∀ v : Valuation Truth, eval v filter = meaning v scope document) :=
  ⟨fun v => eval_of_read v h, fun v => eval_of_read v h⟩

/-- A document in which everything that the reader drops stands next to something it keeps, also
below a negation, and the tree that is left of it. -/
theorem read_meaning_nested :
    let scope : Scope :=
      ⟨"User", ⟨.ofList [("User", ⟨"User", [.declare "age" .integer, .declare "name" .string]⟩)]⟩,
        .empty, .sql .postgres, .empty, {}⟩
    let age (key : String) (n : Int) : Json := .object [("age", .object [(key, .int n)])]
    let document : Json := .object
      [("_and", .array [.object [], .object [("_or", .array [age "_eq" 1, .object []])]]),
       ("_or", .array []),
       ("_not", .object [("_or", .array [age "_eq" 2, .object [("_and", .array [])]])]),
       ("age", .object [("_gt", .int 1), ("lt", .int 9)])]
    let filter : Filter :=
      .all [.not (.all []), .field "age" .gt (.int 1), .field "age" .lt (.int 9)]
    read scope document = .ok filter ∧
      (∀ v : Valuation Bool, eval v filter = meaning v scope document) ∧
      (∀ v : Valuation Truth, eval v filter = meaning v scope document) :=
  ⟨rfl, read_meaning rfl⟩

end Filter

end Criteria
