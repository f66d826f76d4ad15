import Criteria.Proofs.Filter.Accepted

/-!
# The shape of what is read

The reader unwraps combinators of a single part, drops what constrains nothing and leaves out whole
disjunctions, all while it recurses. What comes of it has a simple shape: every conjunction and
every disjunction has several parts, and the filter that constrains nothing stands for a whole
document or directly below a negation, and nowhere else.

Whether a document constrains anything can be seen without reading it. An object constrains nothing
if no member of it does; `_and` constrains nothing if none of its items does, `_or` if some item
constrains nothing or there is none. Negations and fields always constrain.

* `Canonical` — the shape of a tree that constrains something;
* `canonical_of_readObject` — what is read has this shape, or constrains nothing;
* `isVacuous` — whether a document constrains nothing;
* `isIdentity_of_readObject` — what is read constrains nothing exactly then.

What is added to a tree is always canonical, so that the identity can only come from an object that
adds nothing. The two inductions follow the reader, over an object, its members and a list of items.
-/

namespace Criteria.Filter

variable {scope : Scope}

/-! ### Canonical trees -/

/-- The shape of a tree that constrains something: combinators have several parts, and the filter
that constrains nothing occurs below negations only. -/
inductive Canonical : Filter → Prop
  | all {parts : List Filter} (several : 2 ≤ parts.length)
      (each : ∀ part ∈ parts, Canonical part) : Canonical (.all parts)
  | any {parts : List Filter} (several : 2 ≤ parts.length)
      (each : ∀ part ∈ parts, Canonical part) : Canonical (.any parts)
  | not {part : Filter} (inner : Canonical part) : Canonical (.not part)
  | notIdentity : Canonical (.not identity)
  | field {name : String} {op : Operator} {operand : Json} : Canonical (.field name op operand)
  | custom {name key : String} {operand : Json} : Canonical (.custom name key operand)

theorem Canonical.isIdentity {filter : Filter} (h : Canonical filter) :
    filter.isIdentity = false := by
  cases h with
  | @all parts several _ =>
    cases parts with
    | nil => cases several
    | cons => rfl
  | _ => rfl

/-- A tree that is canonical if it constrains anything. -/
def IsCanonical (filter : Filter) : Prop := filter = identity ∨ Canonical filter

theorem IsCanonical.canonical {filter : Filter} (h : IsCanonical filter)
    (hidentity : filter.isIdentity = false) : Canonical filter := by
  rcases h with rfl | h
  · cases hidentity
  · exact h

theorem IsCanonical.not {part : Filter} (h : IsCanonical part) : Canonical (.not part) := by
  rcases h with rfl | h
  · exact .notIdentity
  · exact .not h

/-! ### Collapsing -/

theorem IsCanonical.allOf {parts : List Filter} (h : ∀ part ∈ parts, Canonical part) :
    IsCanonical (allOf parts) := by
  match parts with
  | [] => exact .inl rfl
  | [part] => exact .inr (h part List.mem_cons_self)
  | part :: next :: rest => exact .inr (.all (Nat.le_add_left 2 rest.length) h)

/-- A combinator is added with several parts only. -/
theorem canonical_of_mem_collapse {combine : List Filter → Filter} {parts : List Filter}
    (hcombine : 2 ≤ parts.length → (∀ part ∈ parts, Canonical part) → Canonical (combine parts))
    (h : ∀ part ∈ parts, Canonical part) : ∀ part ∈ collapse combine parts, Canonical part := by
  match parts with
  | [] => exact h
  | [part] => exact h
  | part :: next :: rest =>
    have hseveral : 2 ≤ (part :: next :: rest).length := Nat.le_add_left 2 rest.length
    exact List.forall_mem_singleton.2 (hcombine hseveral h)

theorem canonical_of_mem_collapseAll {parts : List Filter}
    (h : ∀ part ∈ parts, IsCanonical part) : ∀ part ∈ collapseAll parts, Canonical part := by
  refine canonical_of_mem_collapse .all fun part hpart => ?_
  obtain ⟨hmem, hidentity⟩ := List.mem_filter.1 hpart
  exact (h part hmem).canonical (by simpa using hidentity)

theorem canonical_of_mem_collapseAny {parts : List Filter}
    (h : ∀ part ∈ parts, IsCanonical part) : ∀ part ∈ collapseAny parts, Canonical part := by
  unfold collapseAny
  split
  · exact List.forall_mem_nil _
  · next hany =>
    refine canonical_of_mem_collapse .any fun part hpart => (h part hpart).canonical ?_
    exact Bool.eq_false_iff.2 fun hidentity => hany (List.any_eq_true.2 ⟨part, hpart, hidentity⟩)

/-! ### What is read is canonical -/

theorem canonical_of_readLeaf {name key : String} {declared : Option Field} {operand : Json}
    {leaf : Filter} (h : readLeaf scope name declared key operand = .ok leaf) :
    Canonical leaf := by
  rcases readLeaf_eq_ok h with ⟨-, rfl⟩ | ⟨-, _, _, -, -, -, -, -, rfl⟩
  · exact .custom
  · exact .field

theorem canonical_of_readOperators {name : String} {declared : Option Field}
    {operators : List (String × Json)} :
    ∀ {used used' : Nat} {leaves : List Filter},
      readOperators scope name declared used operators = .ok (leaves, used') →
        ∀ leaf ∈ leaves, Canonical leaf := by
  induction operators with
  | nil =>
    intro used used' leaves h
    obtain ⟨rfl, rfl⟩ := Prod.mk.inj (Except.ok.inj h)
    exact List.forall_mem_nil _
  | cons entry rest ih =>
    intro used used' leaves h
    obtain ⟨-, leaf, others, hleaf, hrest, rfl⟩ := readOperators_cons_eq_ok h
    exact List.forall_mem_cons.2 ⟨canonical_of_readLeaf hleaf, ih hrest⟩

mutual

/-- **An object is read as a canonical tree**, or constrains nothing. -/
theorem canonical_of_readObject {depth used used' : Nat} {path : Path} {filter : Filter}
    (document : Json)
    (h : readObject scope depth path used document = .ok (filter, used')) :
    IsCanonical filter := by
  obtain ⟨-, members, parts, rfl, hread, rfl⟩ := readObject_eq_ok h
  exact .allOf (canonical_of_readMembers members hread)
termination_by sizeOf document

theorem canonical_of_readMembers {depth used used' : Nat} {path : Path} {parts : List Filter}
    (members : List (String × Json))
    (h : readMembers scope depth path used members = .ok (parts, used')) :
    ∀ part ∈ parts, Canonical part := by
  match members with
  | [] =>
    obtain ⟨rfl, rfl⟩ := Prod.mk.inj (Except.ok.inj h)
    exact List.forall_mem_nil _
  | (key, value) :: rest =>
    obtain ⟨own, between, others, hown, hrest, rfl⟩ := readMembers_cons_eq_ok h
    refine List.forall_mem_append.2 ⟨?_, canonical_of_readMembers rest hrest⟩
    -- what a member adds is canonical without exception: an identity below it has been filtered
    -- out, has taken its disjunction with it, or is under the negation
    cases hown with
    | @all items _ _ hread =>
      exact canonical_of_mem_collapseAll (canonical_of_readItems items hread)
    | @any items _ _ hread =>
      exact canonical_of_mem_collapseAny (canonical_of_readItems items hread)
    | not hread => exact List.forall_mem_singleton.2 (canonical_of_readObject value hread).not
    | field hkey hread =>
      obtain ⟨-, operators, -, rfl, hoperators⟩ := readField_eq_ok hread
      exact canonical_of_readOperators hoperators
termination_by sizeOf members

theorem canonical_of_readItems {depth used used' index : Nat} {path : Path} {parts : List Filter}
    (items : List Json)
    (h : readItems scope depth path index used items = .ok (parts, used')) :
    ∀ part ∈ parts, IsCanonical part := by
  match items with
  | [] =>
    obtain ⟨rfl, rfl⟩ := Prod.mk.inj (Except.ok.inj h)
    exact List.forall_mem_nil _
  | item :: items =>
    obtain ⟨part, between, others, hpart, hrest, rfl⟩ := readItems_cons_eq_ok h
    exact List.forall_mem_cons.2
      ⟨canonical_of_readObject item hpart, canonical_of_readItems items hrest⟩
termination_by sizeOf items

end

theorem canonical_of_read {document : Json} {filter : Filter}
    (h : read scope document = .ok filter) : IsCanonical filter := by
  rcases read_eq_ok h with ⟨-, rfl⟩ | ⟨used', hread⟩
  · exact .inl rfl
  · exact canonical_of_readObject document hread

/-! ### Documents that constrain nothing -/

mutual

/-- Whether an object of conditions constrains nothing, and `null` in its place. -/
def isVacuous : Json → Bool
  | .null => true
  | .object members => areVacuous members
  | _ => false

/-- Whether a member constrains nothing: an `_or` if it is empty or some item constrains nothing,
another list if no item constrains anything. -/
def isVacuousMember (key : String) : Json → Bool
  | .array items =>
    if key = "_or" then items.isEmpty || anyVacuous items else allVacuous items
  | _ => false

/-- Whether no member constrains anything. -/
def areVacuous : List (String × Json) → Bool
  | [] => true
  | (key, value) :: rest => isVacuousMember key value && areVacuous rest

/-- Whether no item constrains anything. -/
def allVacuous : List Json → Bool
  | [] => true
  | item :: items => isVacuous item && allVacuous items

/-- Whether some item constrains nothing. -/
def anyVacuous : List Json → Bool
  | [] => false
  | item :: items => isVacuous item || anyVacuous items

end

/-- The negation constrains, whatever is below it; the disjunction beside it does not. -/
example :
    isVacuous (.object [("_or", .array [.object [], .object [("age", .object [])]])]) = true ∧
      isVacuous (.object [("_not", .object [])]) = false :=
  ⟨rfl, rfl⟩

/-! ### What is read of them -/

theorem isEmpty_append (parts others : List Filter) :
    (parts ++ others).isEmpty = (parts.isEmpty && others.isEmpty) := by
  cases parts <;> rfl

theorem isEmpty_collapse (combine : List Filter → Filter) (parts : List Filter) :
    (collapse combine parts).isEmpty = parts.isEmpty := by
  match parts with
  | [] => rfl
  | [part] => rfl
  | part :: next :: rest => rfl

/-- `_and` adds nothing if no part of it constrains anything. -/
theorem isEmpty_collapseAll (parts : List Filter) :
    (collapseAll parts).isEmpty = parts.all isIdentity := by
  rw [collapseAll, isEmpty_collapse, Bool.eq_iff_iff, List.isEmpty_iff, List.filter_eq_nil_iff,
    List.all_eq_true]
  simp

/-- `_or` adds nothing if it is empty or some part of it constrains nothing. -/
theorem isEmpty_collapseAny (parts : List Filter) :
    (collapseAny parts).isEmpty = (parts.isEmpty || parts.any isIdentity) := by
  unfold collapseAny
  split
  · next hany => rw [hany, Bool.or_true, List.isEmpty_nil]
  · next hany => rw [isEmpty_collapse, Bool.eq_false_iff.2 hany, Bool.or_false]

theorem isIdentity_allOf {parts : List Filter} (h : ∀ part ∈ parts, Canonical part) :
    (allOf parts).isIdentity = parts.isEmpty := by
  match parts with
  | [] => rfl
  | [part] => exact (h part List.mem_cons_self).isIdentity
  | part :: next :: rest => rfl

/-- A field adds a leaf for each of its operators, and it has one at least. -/
theorem isEmpty_of_readField {used used' : Nat} {path : Path} {name : String} {value : Json}
    {leaves : List Filter} (h : readField scope path used name value = .ok (leaves, used')) :
    leaves.isEmpty = false := by
  obtain ⟨-, operators, hne, rfl, hoperators⟩ := readField_eq_ok h
  -- a field without operators is refused
  cases operators with
  | nil => exact absurd rfl hne
  | cons entry rest =>
    obtain ⟨-, leaf, others, -, -, rfl⟩ := readOperators_cons_eq_ok hoperators
    rfl

/-- Only lists can be left out. -/
theorem isVacuousMember_object (key : String) (members : List (String × Json)) :
    isVacuousMember key (.object members) = false := rfl

mutual

/-- **An object is read as the identity exactly if it constrains nothing.** -/
theorem isIdentity_of_readObject {depth used used' : Nat} {path : Path} {filter : Filter}
    (document : Json) (h : readObject scope depth path used document = .ok (filter, used')) :
    filter.isIdentity = isVacuous document := by
  obtain ⟨-, members, parts, rfl, hread, rfl⟩ := readObject_eq_ok h
  rw [isIdentity_allOf (canonical_of_readMembers members hread), isVacuous]
  exact isEmpty_of_readMembers members hread
termination_by sizeOf document

theorem isEmpty_of_readMembers {depth used used' : Nat} {path : Path} {parts : List Filter}
    (members : List (String × Json))
    (h : readMembers scope depth path used members = .ok (parts, used')) :
    parts.isEmpty = areVacuous members := by
  match members with
  | [] =>
    obtain ⟨rfl, rfl⟩ := Prod.mk.inj (Except.ok.inj h)
    rfl
  | (key, value) :: rest =>
    obtain ⟨own, between, others, hown, hrest, rfl⟩ := readMembers_cons_eq_ok h
    rw [areVacuous, isEmpty_append, isEmpty_of_readMembers rest hrest]
    -- only `_and` and `_or` can add nothing, and their value is then a list
    congr 1
    cases hown with
    | @all items parts _ hread =>
      obtain ⟨-, hall, -⟩ := isIdentity_of_readItems items hread
      rw [isEmpty_collapseAll, hall, isVacuousMember, if_neg (by decide)]
    | @any items parts _ hread =>
      obtain ⟨hempty, -, hany⟩ := isIdentity_of_readItems items hread
      rw [isEmpty_collapseAny, hempty, hany, isVacuousMember, if_pos rfl]
    | not hread =>
      obtain ⟨-, members, -, rfl, -⟩ := readObject_eq_ok hread
      exact (isVacuousMember_object "_not" members).symm
    | field hkey hread =>
      have hadded := isEmpty_of_readField hread
      obtain ⟨-, operators, -, rfl, -⟩ := readField_eq_ok hread
      rw [hadded, isVacuousMember_object]
termination_by sizeOf members

theorem isIdentity_of_readItems {depth used used' index : Nat} {path : Path}
    {parts : List Filter} (items : List Json)
    (h : readItems scope depth path index used items = .ok (parts, used')) :
    parts.isEmpty = items.isEmpty ∧ parts.all isIdentity = allVacuous items ∧
      parts.any isIdentity = anyVacuous items := by
  match items with
  | [] =>
    obtain ⟨rfl, rfl⟩ := Prod.mk.inj (Except.ok.inj h)
    exact ⟨rfl, rfl, rfl⟩
  | item :: items =>
    obtain ⟨part, between, others, hpart, hrest, rfl⟩ := readItems_cons_eq_ok h
    have hitem := isIdentity_of_readObject item hpart
    obtain ⟨-, hall, hany⟩ := isIdentity_of_readItems items hrest
    -- `_and` asks whether all items are vacuous, `_or` whether some are: both go by one reading
    refine ⟨rfl, ?_, ?_⟩
    · rw [List.all_cons, allVacuous, hitem, hall]
    · rw [List.any_cons, anyVacuous, hitem, hany]
termination_by sizeOf items

end

theorem isIdentity_of_read {document : Json} {filter : Filter}
    (h : read scope document = .ok filter) : filter.isIdentity = isVacuous document := by
  rcases read_eq_ok h with ⟨rfl, rfl⟩ | ⟨used', hread⟩
  · rfl
  · exact isIdentity_of_readObject document hread

end Criteria.Filter
