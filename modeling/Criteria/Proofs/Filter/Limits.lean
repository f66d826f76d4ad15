import Criteria.Proofs.Filter.Entries
import Criteria.Proofs.Filter.Operand

/-!
# What the limits are good for

The limits of a scope are there for what comes behind the reader: a compiler that recurses over a
tree of any depth, a statement with any number of parameters. They bound the tree, although not by
the numbers they are given as. One level of a document may become two of the tree, for an object of
several members is a conjunction and the combinator among them another node, so `maxDepth` allows
trees of depth `2 * maxDepth + 1`.

Nothing else depends on them. A larger limit lets through what a smaller one let through, and as the
same tree. Two limits under which a document is accepted need not be comparable; but there is one
above both, and it has the tree of either.

* `depth_of_readObject` — how deep the tree of an object is, by the depth that is left for it;
* `predicateCount_eq` — the leaves of a tree are counted by its list of leaves;
* `Limits.Le`, `Limits.sup` — larger limits, and the limits above two;
* `OnlyRefuse` — a computation with limits that only refuse;
* `readObject_within` — the reader under larger limits;
* `read_bounded` — all of this for documents.
-/

namespace Criteria

/-! ### Larger limits -/

/-- Limits of which each is as large as the other one. -/
structure Limits.Le (small large : Limits) : Prop where
  depth : small.maxDepth ≤ large.maxDepth
  inputBytes : small.maxInputBytes ≤ large.maxInputBytes
  predicates : small.maxPredicates ≤ large.maxPredicates
  listLength : small.maxListLength ≤ large.maxListLength
  orderClauses : small.maxOrderClauses ≤ large.maxOrderClauses

instance : LE Limits := ⟨Limits.Le⟩

/-- The limits above two. -/
def Limits.sup (first second : Limits) : Limits where
  maxDepth := max first.maxDepth second.maxDepth
  maxInputBytes := max first.maxInputBytes second.maxInputBytes
  maxPredicates := max first.maxPredicates second.maxPredicates
  maxListLength := max first.maxListLength second.maxListLength
  maxOrderClauses := max first.maxOrderClauses second.maxOrderClauses

theorem Limits.le_sup_left (first second : Limits) : first ≤ first.sup second :=
  ⟨Nat.le_max_left _ _, Nat.le_max_left _ _, Nat.le_max_left _ _, Nat.le_max_left _ _,
    Nat.le_max_left _ _⟩

theorem Limits.le_sup_right (first second : Limits) : second ≤ first.sup second :=
  ⟨Nat.le_max_right _ _, Nat.le_max_right _ _, Nat.le_max_right _ _, Nat.le_max_right _ _,
    Nat.le_max_right _ _⟩

/-- The same scope with other limits. -/
def Scope.within (scope : Scope) (limits : Limits) : Scope := { scope with limits }

section

variable {ε α : Type} {outcome : Limits → Except ε α}

/-- The limits of a computation only refuse: its result does not depend on them, and what one limit
lets through a larger one does too. -/
structure OnlyRefuse (outcome : Limits → Except ε α) : Prop where
  agree : ∀ {first second : Limits} {result other : α}, outcome first = .ok result →
    outcome second = .ok other → result = other
  lasts : ∀ {small large : Limits} {result : α}, small ≤ large → outcome small = .ok result →
    outcome large = .ok result

/-- If results last, they agree: the limits above both have the result of either. -/
theorem OnlyRefuse.of_lasts
    (lasts : ∀ {small large : Limits} {result : α}, small ≤ large → outcome small = .ok result →
      outcome large = .ok result) : OnlyRefuse outcome where
  lasts := lasts
  agree := by
    intro first second result other hfirst hsecond
    have hresult : outcome (first.sup second) = .ok result :=
      lasts (first.le_sup_left second) hfirst
    have hother : outcome (first.sup second) = .ok other :=
      lasts (first.le_sup_right second) hsecond
    exact Except.ok.inj (hresult.symm.trans hother)

end

/-! ### Operands under larger limits -/

theorem Operand.check_within {registry : Registry} {small large : Limits} {field : Field}
    {op : Operator} {value : Json} (hle : small ≤ large)
    (h : check registry small field op value = .ok ()) :
    check registry large field op value = .ok () := by
  cases hshape : op.shape field.kind with
  | list =>
    obtain ⟨items, hitems, hlength, heach⟩ := (check_list hshape).1 h
    exact (check_list hshape).2 ⟨items, hitems, Nat.le_trans hlength hle.listLength, heach⟩
  | _ =>
    -- no other shape asks for a limit
    unfold check at h ⊢
    rw [hshape] at h ⊢
    exact h

namespace Filter

variable {scope : Scope}

/-! ### The depth of a tree -/

theorem maxDepth_le_iff {parts : List Filter} {bound : Nat} :
    maxDepth parts ≤ bound ↔ ∀ part ∈ parts, part.depth ≤ bound := by
  induction parts with
  | nil => simp [maxDepth]
  | cons part parts ih => rw [maxDepth, Nat.max_le, ih, List.forall_mem_cons]

theorem depth_allOf_le {parts : List Filter} {bound : Nat}
    (h : ∀ part ∈ parts, part.depth ≤ bound) : (allOf parts).depth ≤ bound + 1 := by
  match parts with
  | [] => exact Nat.le_add_left 1 bound
  | [part] => exact Nat.le_succ_of_le (h part List.mem_cons_self)
  | part :: next :: rest =>
    have hparts : maxDepth (part :: next :: rest) ≤ bound := maxDepth_le_iff.2 h
    change 1 + maxDepth (part :: next :: rest) ≤ bound + 1
    omega

/-- A combinator is one level deeper than its parts, where it is not left out. -/
theorem depth_le_of_mem_collapse {combine : List Filter → Filter} {parts : List Filter}
    {bound : Nat} (hcombine : ∀ parts, (combine parts).depth = 1 + maxDepth parts)
    (h : ∀ part ∈ parts, part.depth + 1 ≤ bound) :
    ∀ part ∈ collapse combine parts, part.depth ≤ bound := by
  match parts with
  | [] => exact List.forall_mem_nil _
  | [part] =>
    have hpart := h part List.mem_cons_self
    exact List.forall_mem_singleton.2 (Nat.le_of_succ_le hpart)
  | part :: next :: rest =>
    refine List.forall_mem_singleton.2 ?_
    have hpart := h part List.mem_cons_self
    have hparts : maxDepth (part :: next :: rest) ≤ bound - 1 :=
      maxDepth_le_iff.2 fun part hpart => Nat.le_sub_one_of_lt (h part hpart)
    rw [hcombine]
    omega

theorem depth_of_readOperators {name : String} {declared : Option Field}
    {operators : List (String × Json)} :
    ∀ {used used' : Nat} {leaves : List Filter},
      readOperators scope name declared used operators = .ok (leaves, used') →
        ∀ leaf ∈ leaves, leaf.depth = 0 := by
  induction operators with
  | nil =>
    intro used used' leaves h
    obtain ⟨rfl, rfl⟩ := Prod.mk.inj (Except.ok.inj h)
    exact List.forall_mem_nil _
  | cons entry rest ih =>
    intro used used' leaves h
    obtain ⟨-, leaf, others, hleaf, hrest, rfl⟩ := readOperators_cons_eq_ok h
    refine List.forall_mem_cons.2 ⟨?_, ih hrest⟩
    rcases readLeaf_eq_ok hleaf with ⟨-, rfl⟩ | ⟨-, _, _, -, -, -, -, -, rfl⟩ <;> rfl

mutual

/-- **The tree of an object** has two levels for each level of nesting that is left, and one for the
conjunction of its members. -/
theorem depth_of_readObject {depth used used' : Nat} {path : Path} {filter : Filter}
    (document : Json) (h : readObject scope depth path used document = .ok (filter, used')) :
    filter.depth ≤ 2 * (scope.limits.maxDepth - depth) + 1 := by
  obtain ⟨hdepth, members, parts, rfl, hread, rfl⟩ := readObject_eq_ok h
  exact depth_allOf_le (depth_of_readMembers members hread)
termination_by sizeOf document

theorem depth_of_readMembers {depth used used' : Nat} {path : Path} {parts : List Filter}
    (members : List (String × Json))
    (h : readMembers scope depth path used members = .ok (parts, used')) :
    ∀ part ∈ parts, part.depth ≤ 2 * (scope.limits.maxDepth - depth) := by
  match members with
  | [] =>
    obtain ⟨rfl, rfl⟩ := Prod.mk.inj (Except.ok.inj h)
    exact List.forall_mem_nil _
  | (key, value) :: rest =>
    obtain ⟨own, between, others, hown, hrest, rfl⟩ := readMembers_cons_eq_ok h
    refine List.forall_mem_append.2 ⟨?_, depth_of_readMembers rest hrest⟩
    -- what lies one level deeper in the document has two levels less, and one of them the
    -- combinator needs for itself
    cases hown with
    | @all items parts _ hread =>
      have hparts := depth_of_readItems items hread
      exact depth_le_of_mem_collapse (fun _ => by rw [Filter.depth]) fun part hpart =>
        hparts part (List.mem_filter.1 hpart).1
    | @any items parts _ hread =>
      have hparts := depth_of_readItems items hread
      unfold collapseAny
      split
      · exact List.forall_mem_nil _
      · exact depth_le_of_mem_collapse (fun _ => by rw [Filter.depth]) hparts
    | @not value part _ hread =>
      have hpart := depth_of_readObject value hread
      obtain ⟨hdepth, -⟩ := readObject_eq_ok hread
      refine List.forall_mem_singleton.2 ?_
      rw [Filter.depth]
      omega
    | field hkey hread =>
      obtain ⟨-, operators, -, rfl, hoperators⟩ := readField_eq_ok hread
      intro leaf hleaf
      rw [depth_of_readOperators hoperators leaf hleaf]
      exact Nat.zero_le _
termination_by sizeOf members

theorem depth_of_readItems {depth used used' index : Nat} {path : Path} {parts : List Filter}
    (items : List Json)
    (h : readItems scope (depth + 1) path index used items = .ok (parts, used')) :
    ∀ part ∈ parts, part.depth + 1 ≤ 2 * (scope.limits.maxDepth - depth) := by
  match items with
  | [] =>
    obtain ⟨rfl, rfl⟩ := Prod.mk.inj (Except.ok.inj h)
    exact List.forall_mem_nil _
  | item :: items =>
    obtain ⟨part, between, others, hpart, hrest, rfl⟩ := readItems_cons_eq_ok h
    refine List.forall_mem_cons.2 ⟨?_, depth_of_readItems items hrest⟩
    have hdeep := depth_of_readObject item hpart
    -- there is an item, so that its level is allowed
    obtain ⟨hdepth, -⟩ := readObject_eq_ok hpart
    omega
termination_by sizeOf items

end

/-! ### The leaves of a tree -/

mutual

theorem predicateCount_eq (filter : Filter) : filter.predicateCount = filter.leaves.length := by
  match filter with
  | .all parts => rw [predicateCount, leaves, predicateCounts_eq parts]
  | .any parts => rw [predicateCount, leaves, predicateCounts_eq parts]
  | .not part => rw [predicateCount, leaves, predicateCount_eq part]
  | .field _ _ _ => rw [predicateCount, leaves, List.length_singleton]
  | .custom _ _ _ => rw [predicateCount, leaves, List.length_singleton]

theorem predicateCounts_eq (parts : List Filter) :
    predicateCounts parts = (leavesAll parts).length := by
  match parts with
  | [] => rfl
  | part :: parts =>
    rw [predicateCounts, leavesAll, List.length_append, predicateCount_eq part,
      predicateCounts_eq parts]

end

/-- There are at most as many leaves as entries. -/
theorem Yields.length_le {given : List Entry} {found : List Filter} (h : Yields scope given found) :
    found.length ≤ given.length := by
  rw [← List.Forall₂.length_eq h]
  exact List.length_filter_le _ _

theorem predicateCount_of_read {document : Json} {filter : Filter}
    (h : read scope document = .ok filter) :
    filter.predicateCount ≤ scope.limits.maxPredicates := by
  have hcount : operatorCount document ≤ scope.limits.maxPredicates := by
    rcases (exists_read_iff scope document).1 ⟨filter, h⟩ with rfl | ⟨-, hcount⟩
    · exact Nat.zero_le _
    · exact hcount
  calc filter.predicateCount = filter.leaves.length := predicateCount_eq filter
    _ ≤ (entries document).length := (yields_of_read h).length_le
    _ = operatorCount document := length_entries document
    _ ≤ scope.limits.maxPredicates := hcount

theorem depth_of_read {document : Json} {filter : Filter} (h : read scope document = .ok filter) :
    filter.depth ≤ 2 * scope.limits.maxDepth + 1 := by
  rcases read_eq_ok h with ⟨-, rfl⟩ | ⟨used', hread⟩
  · exact Nat.le_add_left 1 _
  · exact depth_of_readObject document hread

/-- A list that an operator takes is not too long. -/
theorem length_of_checked {name : String} {op : Operator} {operand : Json}
    (h : Checked scope (.field name op operand)) :
    ∃ declared, scope.field? name = some declared ∧
      (op.shape declared.kind = .list →
        ∃ items, operand = .array items ∧ items.length ≤ scope.limits.maxListLength) := by
  cases h with
  | field _ isDeclared _ _ _ check =>
    refine ⟨_, isDeclared, fun hshape => ?_⟩
    obtain ⟨items, hitems, hlength, -⟩ := (Operand.check_list hshape).1 check
    exact ⟨items, hitems, hlength⟩

/-! ### Reading under larger limits -/

section Within

variable {limits : Limits}

theorem readLeaf_within {name key : String} {declared : Option Field} {operand : Json}
    {leaf : Filter} (hle : scope.limits ≤ limits)
    (h : readLeaf scope name declared key operand = .ok leaf) :
    readLeaf (scope.within limits) name declared key operand = .ok leaf := by
  rcases readLeaf_eq_ok h with
    ⟨hcustom, rfl⟩ | ⟨hcustom, field, op, rfl, hfilterable, hkey, hlegal, hcheck, rfl⟩
  · exact readLeaf_of_custom hcustom
  · exact readLeaf_of_builtin hcustom hfilterable hkey hlegal (Operand.check_within hle hcheck)

theorem readOperators_within {name : String} {declared : Option Field}
    {operators : List (String × Json)} (hle : scope.limits ≤ limits) :
    ∀ {used used' : Nat} {leaves : List Filter},
      readOperators scope name declared used operators = .ok (leaves, used') →
        readOperators (scope.within limits) name declared used operators = .ok (leaves, used') := by
  induction operators with
  | nil =>
    intro used used' leaves h
    exact h
  | cons entry rest ih =>
    intro used used' leaves h
    obtain ⟨hcount, leaf, others, hleaf, hrest, rfl⟩ := readOperators_cons_eq_ok h
    exact readOperators_cons (Nat.le_trans hcount hle.predicates) (readLeaf_within hle hleaf)
      (ih hrest)

mutual

/-- **Larger limits let an object through as it was read.** -/
theorem readObject_within {depth used used' : Nat} {path : Path} {filter : Filter}
    (hle : scope.limits ≤ limits) (document : Json)
    (h : readObject scope depth path used document = .ok (filter, used')) :
    readObject (scope.within limits) depth path used document = .ok (filter, used') := by
  obtain ⟨hdepth, members, parts, rfl, hread, rfl⟩ := readObject_eq_ok h
  exact readObject_object (Nat.le_trans hdepth hle.depth) (readMembers_within hle members hread)
termination_by sizeOf document

theorem readMembers_within {depth used used' : Nat} {path : Path} {parts : List Filter}
    (hle : scope.limits ≤ limits) (members : List (String × Json))
    (h : readMembers scope depth path used members = .ok (parts, used')) :
    readMembers (scope.within limits) depth path used members = .ok (parts, used') := by
  match members with
  | [] => exact h
  | (key, value) :: rest =>
    obtain ⟨own, between, others, hown, hrest, rfl⟩ := readMembers_cons_eq_ok h
    refine readMembers_cons ?_ (readMembers_within hle rest hrest)
    cases hown with
    | @all items _ _ hread => exact .all (readItems_within hle items hread)
    | @any items _ _ hread => exact .any (readItems_within hle items hread)
    | not hread => exact .not (readObject_within hle value hread)
    | field hkey hread =>
      obtain ⟨hknown, operators, hne, rfl, hoperators⟩ := readField_eq_ok hread
      exact .field hkey (readField_object hknown hne (readOperators_within hle hoperators))
termination_by sizeOf members

theorem readItems_within {depth used used' index : Nat} {path : Path} {parts : List Filter}
    (hle : scope.limits ≤ limits) (items : List Json)
    (h : readItems scope depth path index used items = .ok (parts, used')) :
    readItems (scope.within limits) depth path index used items = .ok (parts, used') := by
  match items with
  | [] => exact h
  | item :: items =>
    obtain ⟨part, between, others, hpart, hrest, rfl⟩ := readItems_cons_eq_ok h
    exact readItems_cons (readObject_within hle item hpart) (readItems_within hle items hrest)
termination_by sizeOf items

end

theorem read_within {document : Json} {filter : Filter} (hle : scope.limits ≤ limits)
    (h : read scope document = .ok filter) :
    read (scope.within limits) document = .ok filter := by
  rcases read_eq_ok h with ⟨rfl, rfl⟩ | ⟨used', hread⟩
  · rfl
  · exact read_of_readObject (readObject_within hle document hread)

theorem readText_within {text : String} {filter : Filter} (hle : scope.limits ≤ limits)
    (h : readText scope text = .ok filter) :
    readText (scope.within limits) text = .ok filter := by
  unfold readText at h ⊢
  split at h
  · cases h
  · next hsize =>
    have hsize' : ¬ (scope.within limits).limits.maxInputBytes < text.utf8ByteSize :=
      fun hlt => hsize (Nat.lt_of_le_of_lt hle.inputBytes hlt)
    rw [if_neg hsize']
    split at h
    · cases h
    · next document hdocument => exact read_within hle h

end Within

/-! ### Documents -/

/-- **The limits bound what is accepted, and only refuse.** The tree of an accepted document is at
most twice as deep as documents may nest, and one level more; it has no more leaves than operators
are allowed, and no built-in operator on lists takes one that is too long. Limits that accept a
document, or a text, agree on its tree, and so do all larger ones. -/
theorem read_bounded (scope : Scope) :
    (∀ document filter, read scope document = .ok filter →
      filter.depth ≤ 2 * scope.limits.maxDepth + 1 ∧
      filter.predicateCount ≤ scope.limits.maxPredicates ∧
      ∀ name op operand, .field name op operand ∈ filter.leaves →
        ∃ declared, scope.field? name = some declared ∧
          (op.shape declared.kind = .list →
            ∃ items, operand = .array items ∧ items.length ≤ scope.limits.maxListLength)) ∧
    (∀ document, OnlyRefuse fun limits => read (scope.within limits) document) ∧
    (∀ text, OnlyRefuse fun limits => readText (scope.within limits) text) := by
  refine ⟨?_, ?_, ?_⟩
  · intro document filter h
    exact ⟨depth_of_read h, predicateCount_of_read h, fun name op operand hleaf =>
      length_of_checked (checked_of_read h _ hleaf)⟩
  · intro document
    exact .of_lasts fun {small large _} hle h => @read_within (scope.within small) large _ _ hle h
  · intro text
    exact .of_lasts fun {small large _} hle h =>
      @readText_within (scope.within small) large _ _ hle h

/-- One level of nesting is allowed and used, and the tree has three levels: the bound is met. The
list is as long as it may be, and there are as many operators as there may be. Without any nesting
the document is refused; with the default limits it is read as the same tree. -/
theorem read_bounded_tight :
    let limits : Limits := { maxDepth := 1, maxPredicates := 4, maxListLength := 2 }
    let scope : Scope :=
      ⟨"User", ⟨.ofList [("User", ⟨"User", [.declare "age" .integer]⟩)]⟩, .empty, .sql .sqlite,
        .empty, limits⟩
    let ages : Json := .array [.int 1, .int 2]
    let document : Json := .object
      [("age", .object [("_gt", .int 0)]),
       ("_or", .array [.object [("age", .object [("_in", ages)])],
         .object [("age", .object [("_gt", .int 5), ("_lt", .int 9)])]])]
    let filter : Filter :=
      .all [.field "age" .gt (.int 0), .any [.field "age" .isIn ages,
        .all [.field "age" .gt (.int 5), .field "age" .lt (.int 9)]]]
    read scope document = .ok filter ∧ filter.depth = 2 * limits.maxDepth + 1 ∧
      filter.depth ≤ 2 * limits.maxDepth + 1 ∧ filter.predicateCount ≤ limits.maxPredicates ∧
      (∃ declared, scope.field? "age" = some declared ∧
        (Operator.isIn.shape declared.kind = .list →
          ∃ items, ages = .array items ∧ items.length ≤ limits.maxListLength)) ∧
      read (scope.within { limits with maxDepth := 0 }) document = .error (.tooDeep 0) ∧
      read (scope.within {}) document = .ok filter := by
  intro limits scope ages document filter
  have hread : read scope document = .ok filter := rfl
  obtain ⟨hbounds, hdocument, -⟩ := read_bounded scope
  obtain ⟨hdepth, hcount, hlists⟩ := hbounds document filter hread
  have hlarger : limits ≤ {} := ⟨by decide, by decide, by decide, by decide, by decide⟩
  refine ⟨hread, rfl, hdepth, hcount, hlists "age" .isIn ages ?_, rfl, ?_⟩
  · simp [filter]
  · exact (hdocument document).lasts hlarger hread

end Filter

end Criteria
