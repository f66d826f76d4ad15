import Criteria.Proofs.Filter.Leaves
import Criteria.Proofs.Registry.Custom

/-!
# The language of filter documents

Which documents the reader accepts can be said without reading them: a grammar of objects, members
and operator entries with a bound on the nesting, and a bound on the number of operator entries
anywhere in the document. The reader goes through the document once, counts as it goes and throws
parts away; it accepts exactly this language. So nothing wrong hides in a part that is dropped, and
both bounds are met exactly.

* `IsOperator` — an operator entry that is accepted on a field;
* `IsObject`, `IsMember` — an object of conditions at a depth, and one member of it;
* `operatorCount` — the operator entries of a document;
* `spec_of_readObject` — what is read is of the grammar, and `used` grows by the operators in it;
* `exists_readObject` — what is of the grammar is read, as long as the operators are not too many;
* `exists_read_iff` — the reader accepts the language and nothing else.

The two directions are inductions over the document, each with one lemma for objects, members and
items. Both speak about every count of operators read before, since a part is read behind others.
-/

namespace Criteria.Filter

variable {scope : Scope}

/-! ### The grammar -/

/-- An operator entry on a field: a custom filter is registered for its key, or it is a built-in
operator that is legal on the declared field and has an operand that fits. -/
inductive IsOperator (scope : Scope) (name : String) : String → Json → Prop
  | custom {key : String} {operand : Json} (registered : scope.hasCustom name key = true) :
    IsOperator scope name key operand
  | builtin {key : String} {operand : Json} {field : Field} {op : Operator}
      (declared : scope.field? name = some field) (filterable : field.filterable = true)
      (isKey : Operator.ofKey? key = some op)
      (legal : scope.registry.isLegal field.kind scope.adapter op = true)
      (fits : Operand.check scope.registry scope.limits field op operand = .ok ()) :
    IsOperator scope name key operand

mutual

/-- An object of conditions at a depth of nesting that is allowed. -/
inductive IsObject (scope : Scope) : Nat → Json → Prop
  | object {depth : Nat} {members : List (String × Json)} (within : depth ≤ scope.limits.maxDepth)
      (each : ∀ member ∈ members, IsMember scope depth member.1 member.2) :
    IsObject scope depth (.object members)

/-- A member of an object: a combinator of objects that lie one deeper, or a field that is declared
or has some custom filter, with at least one operator. -/
inductive IsMember (scope : Scope) : Nat → String → Json → Prop
  | all {depth : Nat} {items : List Json} (each : ∀ item ∈ items, IsObject scope (depth + 1) item) :
    IsMember scope depth "_and" (.array items)
  | any {depth : Nat} {items : List Json} (each : ∀ item ∈ items, IsObject scope (depth + 1) item) :
    IsMember scope depth "_or" (.array items)
  | not {depth : Nat} {part : Json} (inner : IsObject scope (depth + 1) part) :
    IsMember scope depth "_not" part
  | field {depth : Nat} {name : String} {operators : List (String × Json)}
      (isField : IsFieldKey name)
      (known : (∃ field, scope.field? name = some field) ∨ ∃ key, scope.hasCustom name key = true)
      (nonempty : operators ≠ [])
      (each : ∀ entry ∈ operators, IsOperator scope name entry.1 entry.2) :
    IsMember scope depth name (.object operators)

end

mutual

/-- The operator entries of a document, those in parts that the reader drops included. -/
def operatorCount : Json → Nat
  | .object members => membersCount members
  | _ => 0

/-- The operator entries of a member. A list holds objects, and so does `_not`; every other object
is one of operators. -/
def memberCount (key : String) : Json → Nat
  | .array items => itemsCount items
  | .object members => if key = "_not" then membersCount members else members.length
  | _ => 0

/-- The operator entries of members. -/
def membersCount : List (String × Json) → Nat
  | [] => 0
  | (key, value) :: rest => memberCount key value + membersCount rest

/-- The operator entries of items. -/
def itemsCount : List Json → Nat
  | [] => 0
  | item :: items => operatorCount item + itemsCount items

end

/-- The empty part makes the `_or` true, and the other one counts all the same. -/
example :
    operatorCount (.object [("_or", .array [.object [],
      .object [("name", .object [("_eq", .string "Ada"), ("_is_null", .bool false)])]])]) = 2 :=
  rfl

theorem operatorCount_object (members : List (String × Json)) :
    operatorCount (.object members) = membersCount members := by rw [operatorCount]

theorem memberCount_array (key : String) (items : List Json) :
    memberCount key (.array items) = itemsCount items := by rw [memberCount]

/-- Below `_not` the operators of the object count. -/
theorem memberCount_not {depth : Nat} {part : Json} (h : IsObject scope depth part) :
    memberCount "_not" part = operatorCount part := by
  cases h with
  | object => rw [memberCount, if_pos rfl, operatorCount]

theorem memberCount_field {name : String} (isField : IsFieldKey name)
    (operators : List (String × Json)) :
    memberCount name (.object operators) = operators.length := by
  rw [memberCount, if_neg isField.2.2]

/-! ### What is read is of the language -/

theorem isOperator_of_readLeaf {name key : String} {operand : Json} {leaf : Filter}
    (h : readLeaf scope name (scope.field? name) key operand = .ok leaf) :
    IsOperator scope name key operand := by
  rcases readLeaf_eq_ok h with
    ⟨hcustom, -⟩ | ⟨-, field, op, hdeclared, hfilterable, hkey, hlegal, hcheck, -⟩
  · exact .custom hcustom
  · exact .builtin hdeclared hfilterable hkey hlegal hcheck

theorem spec_of_readOperators {used used' : Nat} {name : String} (operators : List (String × Json))
    (hused : used ≤ scope.limits.maxPredicates) {leaves : List Filter}
    (h : readOperators scope name (scope.field? name) used operators = .ok (leaves, used')) :
    (∀ entry ∈ operators, IsOperator scope name entry.1 entry.2) ∧
      used' = used + operators.length ∧ used' ≤ scope.limits.maxPredicates := by
  induction operators generalizing used leaves with
  | nil =>
    obtain ⟨rfl, rfl⟩ := Prod.mk.inj (Except.ok.inj h)
    exact ⟨List.forall_mem_nil _, rfl, hused⟩
  | cons entry rest ih =>
    obtain ⟨key, operand⟩ := entry
    -- an operator is counted before it is read, so the bound still holds behind it
    obtain ⟨hcount, leaf, others, hleaf, hrest, rfl⟩ := readOperators_cons_eq_ok h
    obtain ⟨hoperators, hused', hmax⟩ := ih hcount hrest
    have hfirst : IsOperator scope name key operand := isOperator_of_readLeaf hleaf
    exact ⟨List.forall_mem_cons.2 ⟨hfirst, hoperators⟩, by rw [List.length_cons]; omega, hmax⟩

/-- A field with an accepted operator entry is declared or has a custom filter. -/
theorem IsOperator.known {name key : String} {operand : Json}
    (h : IsOperator scope name key operand) :
    (∃ field, scope.field? name = some field) ∨ ∃ key, scope.hasCustom name key = true := by
  cases h with
  | custom registered => exact .inr ⟨key, registered⟩
  | builtin declared _ _ _ _ => exact .inl ⟨_, declared⟩

theorem spec_of_readField {depth used used' : Nat} {path : Path} {name : String} {value : Json}
    (isField : IsFieldKey name) (hused : used ≤ scope.limits.maxPredicates) {leaves : List Filter}
    (h : readField scope path used name value = .ok (leaves, used')) :
    IsMember scope depth name value ∧ used' = used + memberCount name value ∧
      used' ≤ scope.limits.maxPredicates := by
  obtain ⟨-, operators, hne, rfl, hread⟩ := readField_eq_ok h
  obtain ⟨hoperators, hused', hmax⟩ := spec_of_readOperators operators hused hread
  -- some operator was read, and it tells why the field is known
  obtain ⟨⟨key, operand⟩, rest, rfl⟩ := List.exists_cons_of_ne_nil hne
  have hfirst : IsOperator scope name key operand := (List.forall_mem_cons.1 hoperators).1
  rw [memberCount_field isField]
  exact ⟨.field isField hfirst.known hne hoperators, hused', hmax⟩

mutual

/-- An object that is read is of the grammar, and its operators are counted and not too many. -/
theorem spec_of_readObject {depth used used' : Nat} {path : Path} {filter : Filter}
    (document : Json) (hused : used ≤ scope.limits.maxPredicates)
    (h : readObject scope depth path used document = .ok (filter, used')) :
    IsObject scope depth document ∧ used' = used + operatorCount document ∧
      used' ≤ scope.limits.maxPredicates := by
  obtain ⟨hdepth, members, parts, rfl, hread, rfl⟩ := readObject_eq_ok h
  obtain ⟨hmembers, hcount, hmax⟩ := spec_of_readMembers members hused hread
  rw [operatorCount_object]
  exact ⟨.object hdepth hmembers, hcount, hmax⟩
termination_by sizeOf document

theorem spec_of_readMembers {depth used used' : Nat} {path : Path} {parts : List Filter}
    (members : List (String × Json)) (hused : used ≤ scope.limits.maxPredicates)
    (h : readMembers scope depth path used members = .ok (parts, used')) :
    (∀ member ∈ members, IsMember scope depth member.1 member.2) ∧
      used' = used + membersCount members ∧ used' ≤ scope.limits.maxPredicates := by
  match members with
  | [] =>
    obtain ⟨rfl, rfl⟩ := Prod.mk.inj (Except.ok.inj h)
    exact ⟨List.forall_mem_nil _, by rw [membersCount]; rfl, hused⟩
  | (key, value) :: rest =>
    obtain ⟨own, between, others, hown, hrest, rfl⟩ := readMembers_cons_eq_ok h
    -- the member itself, whose operators are counted before those of the rest
    have hmember : IsMember scope depth key value ∧ between = used + memberCount key value ∧
        between ≤ scope.limits.maxPredicates := by
      cases hown with
      | @all items _ _ hread =>
        obtain ⟨hitems, hcount, hmax⟩ := spec_of_readItems items hused hread
        exact ⟨.all hitems, by rw [memberCount_array, hcount], hmax⟩
      | @any items _ _ hread =>
        obtain ⟨hitems, hcount, hmax⟩ := spec_of_readItems items hused hread
        exact ⟨.any hitems, by rw [memberCount_array, hcount], hmax⟩
      | not hread =>
        obtain ⟨hpart, hcount, hmax⟩ := spec_of_readObject value hused hread
        exact ⟨.not hpart, by rw [memberCount_not hpart, hcount], hmax⟩
      | field isField hread => exact spec_of_readField isField hused hread
    obtain ⟨hfirst, hbetween, hmax⟩ := hmember
    obtain ⟨hothers, hcount, hmax'⟩ := spec_of_readMembers rest hmax hrest
    refine ⟨List.forall_mem_cons.2 ⟨hfirst, hothers⟩, ?_, hmax'⟩
    rw [membersCount, hcount, hbetween, Nat.add_assoc]
termination_by sizeOf members

theorem spec_of_readItems {depth used used' index : Nat} {path : Path} {parts : List Filter}
    (items : List Json) (hused : used ≤ scope.limits.maxPredicates)
    (h : readItems scope depth path index used items = .ok (parts, used')) :
    (∀ item ∈ items, IsObject scope depth item) ∧
      used' = used + itemsCount items ∧ used' ≤ scope.limits.maxPredicates := by
  match items with
  | [] =>
    obtain ⟨rfl, rfl⟩ := Prod.mk.inj (Except.ok.inj h)
    exact ⟨List.forall_mem_nil _, by rw [itemsCount]; rfl, hused⟩
  | item :: items =>
    obtain ⟨part, between, others, hpart, hrest, rfl⟩ := readItems_cons_eq_ok h
    obtain ⟨hitem, hbetween, hmax⟩ := spec_of_readObject item hused hpart
    obtain ⟨hitems, hcount, hmax'⟩ := spec_of_readItems items hmax hrest
    refine ⟨List.forall_mem_cons.2 ⟨hitem, hitems⟩, ?_, hmax'⟩
    rw [itemsCount, hcount, hbetween, Nat.add_assoc]
termination_by sizeOf items

end

/-! ### What is of the language is read -/

theorem exists_readLeaf {name key : String} {operand : Json}
    (h : IsOperator scope name key operand) :
    ∃ leaf, readLeaf scope name (scope.field? name) key operand = .ok leaf := by
  -- a custom filter goes first, and no check is made of its operand
  cases hcustom : scope.hasCustom name key with
  | true => exact ⟨_, readLeaf_of_custom hcustom⟩
  | false =>
    cases h with
    | custom registered => exact absurd registered (by simp [hcustom])
    | builtin declared filterable isKey legal fits =>
      rw [declared]
      exact ⟨_, readLeaf_of_builtin hcustom filterable isKey legal fits⟩

theorem exists_readOperators (used : Nat) {name : String} (operators : List (String × Json))
    (hoperators : ∀ entry ∈ operators, IsOperator scope name entry.1 entry.2)
    (hmax : used + operators.length ≤ scope.limits.maxPredicates) :
    ∃ leaves, readOperators scope name (scope.field? name) used operators =
      .ok (leaves, used + operators.length) := by
  induction operators generalizing used with
  | nil => exact ⟨[], rfl⟩
  | cons entry rest ih =>
    obtain ⟨key, operand⟩ := entry
    rw [List.length_cons] at hmax ⊢
    obtain ⟨hfirst, hrest⟩ := List.forall_mem_cons.1 hoperators
    obtain ⟨leaf, hleaf⟩ := exists_readLeaf hfirst
    obtain ⟨others, hothers⟩ := ih (used + 1) hrest (by omega)
    rw [show used + (rest.length + 1) = used + 1 + rest.length by omega]
    exact ⟨leaf :: others, readOperators_cons (by omega) hleaf hothers⟩

/-- A field with a registered custom filter has custom filters. -/
theorem hasCustomField_of_hasCustom {name key : String} (h : scope.hasCustom name key = true) :
    scope.hasCustomField name = true :=
  CustomFilters.hasField_of_mem_operatorKeys (CustomFilters.canonicalKey_mem_operatorKeys h)

theorem exists_readField (used : Nat) (path : Path) {name : String}
    {operators : List (String × Json)}
    (known : (∃ field, scope.field? name = some field) ∨ ∃ key, scope.hasCustom name key = true)
    (nonempty : operators ≠ [])
    (hoperators : ∀ entry ∈ operators, IsOperator scope name entry.1 entry.2)
    (hmax : used + operators.length ≤ scope.limits.maxPredicates) :
    ∃ leaves, readField scope path used name (.object operators) =
      .ok (leaves, used + operators.length) := by
  -- the reader asks for any custom filter of the field, and one of them is enough
  have hknown : (scope.field? name).isSome = true ∨ scope.hasCustomField name = true :=
    known.imp (fun ⟨_, hfield⟩ => Option.isSome_of_eq_some hfield)
      (fun ⟨_, hkey⟩ => hasCustomField_of_hasCustom hkey)
  obtain ⟨leaves, hleaves⟩ := exists_readOperators used operators hoperators hmax
  exact ⟨leaves, readField_object hknown nonempty hleaves⟩

mutual

/-- An object of the grammar is read, if its operators are not too many. -/
theorem exists_readObject (used : Nat) {depth : Nat} (path : Path) (document : Json)
    (h : IsObject scope depth document)
    (hmax : used + operatorCount document ≤ scope.limits.maxPredicates) :
    ∃ filter, readObject scope depth path used document =
      .ok (filter, used + operatorCount document) := by
  cases h with
  | @object _ members within hmembers =>
    rw [operatorCount_object] at hmax ⊢
    obtain ⟨parts, hparts⟩ := exists_readMembers used path members hmembers hmax
    exact ⟨allOf parts, readObject_object within hparts⟩
termination_by sizeOf document

theorem exists_readMembers (used : Nat) {depth : Nat} (path : Path) (members : List (String × Json))
    (h : ∀ member ∈ members, IsMember scope depth member.1 member.2)
    (hmax : used + membersCount members ≤ scope.limits.maxPredicates) :
    ∃ parts, readMembers scope depth path used members =
      .ok (parts, used + membersCount members) := by
  match members with
  | [] => exact ⟨[], by rw [readMembers, membersCount]; rfl⟩
  | (key, value) :: rest =>
    obtain ⟨hfirst, hrest⟩ := List.forall_mem_cons.1 h
    rw [membersCount] at hmax ⊢
    -- what is added to the tree does not matter, only that something is
    have hown : ∃ own, ReadsMember scope depth path used key value own
        (used + memberCount key value) := by
      have hmax : used + memberCount key value ≤ scope.limits.maxPredicates := by omega
      cases hfirst with
      | @all _ items hitems =>
        rw [memberCount_array] at hmax ⊢
        obtain ⟨parts, hparts⟩ := exists_readItems used 0 _ items hitems hmax
        exact ⟨_, .all hparts⟩
      | @any _ items hitems =>
        rw [memberCount_array] at hmax ⊢
        obtain ⟨parts, hparts⟩ := exists_readItems used 0 _ items hitems hmax
        exact ⟨_, .any hparts⟩
      | not hinner =>
        rw [memberCount_not hinner] at hmax ⊢
        obtain ⟨part, hpart⟩ := exists_readObject used _ value hinner hmax
        exact ⟨_, .not hpart⟩
      | field isField known nonempty hoperators =>
        rw [memberCount_field isField] at hmax ⊢
        obtain ⟨leaves, hleaves⟩ := exists_readField used _ known nonempty hoperators hmax
        exact ⟨_, .field isField hleaves⟩
    -- what the member takes of the bound, the rest is read behind
    obtain ⟨own, hown⟩ := hown
    obtain ⟨others, hothers⟩ := exists_readMembers (used + memberCount key value) path rest hrest
      (by omega)
    rw [← Nat.add_assoc]
    exact ⟨own ++ others, readMembers_cons hown hothers⟩
termination_by sizeOf members

theorem exists_readItems (used index : Nat) {depth : Nat} (path : Path) (items : List Json)
    (h : ∀ item ∈ items, IsObject scope depth item)
    (hmax : used + itemsCount items ≤ scope.limits.maxPredicates) :
    ∃ parts, readItems scope depth path index used items =
      .ok (parts, used + itemsCount items) := by
  match items with
  | [] => exact ⟨[], by rw [readItems, itemsCount]; rfl⟩
  | item :: items =>
    rw [itemsCount] at hmax ⊢
    obtain ⟨hitem, hitems⟩ := List.forall_mem_cons.1 h
    obtain ⟨part, hpart⟩ := exists_readObject used _ item hitem (by omega)
    obtain ⟨others, hothers⟩ := exists_readItems (used + operatorCount item) (index + 1) path items
      hitems (by omega)
    rw [← Nat.add_assoc]
    exact ⟨part :: others, readItems_cons hpart hothers⟩
termination_by sizeOf items

end

/-! ### Documents -/

/-- **The reader accepts its grammar.** A document is accepted exactly if it is `null`, or an object
of the grammar with at most as many operators as the limit allows. -/
theorem exists_read_iff (scope : Scope) (document : Json) :
    (∃ filter, read scope document = .ok filter) ↔
      document = .null ∨
        (IsObject scope 0 document ∧ operatorCount document ≤ scope.limits.maxPredicates) := by
  constructor
  · rintro ⟨filter, hread⟩
    rcases read_eq_ok hread with ⟨hnull, -⟩ | ⟨used', hread⟩
    · exact .inl hnull
    · obtain ⟨hobject, hcount, hmax⟩ := spec_of_readObject document (Nat.zero_le _) hread
      exact .inr ⟨hobject, by omega⟩
  · rintro (rfl | ⟨hobject, hmax⟩)
    · exact ⟨identity, rfl⟩
    · obtain ⟨filter, hread⟩ := exists_readObject 0 [] document hobject (by omega)
      exact ⟨filter, read_of_readObject hread⟩

end Criteria.Filter
