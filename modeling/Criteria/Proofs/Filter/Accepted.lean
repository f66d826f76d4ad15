import Criteria.Filter.Reading
import Criteria.Proofs.Outcome

/-!
# What an accepted document consists of

The reader of filter documents is three mutual recursions, over an object, its members and the
items of a list. Each lemma here says, for one of them, everything that a success means: which case
applied, which parts were read before and after it, and what was added to the tree.

* `readLeaf_eq_ok` — one operator of a field;
* `readOperators_cons_eq_ok`, `readField_eq_ok` — the operators of a field;
* `readObject_eq_ok`, `readMembers_cons_eq_ok`, `readItems_cons_eq_ok` — the combinators;
* `readLeaf_of_custom`, `readLeaf_of_builtin`, `readOperators_cons`, `readField_object`,
  `readObject_object`, `readMembers_cons`, `readItems_cons` — what a success needs;
* `readObject_operator`, `read_of_readObject` — a field with a single operator, whole documents.

A law about accepted documents is then an induction whose cases are these, and does not unfold the
reader.
-/

namespace Criteria.Filter

variable {scope : Scope} {depth used used' index : Nat} {path : Path}

/-! ### Leaves -/

/-- An operator is read as a custom one if it is registered, and otherwise as a built-in one that is
legal on a declared, filterable field and whose operand was checked. -/
theorem readLeaf_eq_ok {name key : String} {declared : Option Field} {operand : Json}
    {leaf : Filter} (h : readLeaf scope name declared key operand = .ok leaf) :
    (scope.hasCustom name key = true ∧
      leaf = .custom name (CustomFilters.canonicalKey key) operand) ∨
    (scope.hasCustom name key = false ∧ ∃ field op, declared = some field ∧
      field.filterable = true ∧ Operator.ofKey? key = some op ∧
      scope.registry.isLegal field.kind scope.adapter op = true ∧
      Operand.check scope.registry scope.limits field op operand = .ok () ∧
      leaf = .field name op operand) := by
  unfold readLeaf at h
  -- the checks in the order in which the reader makes them: all but the last case are refused
  split at h
  · next hcustom => exact .inl ⟨hcustom, (Except.ok.inj h).symm⟩
  · next hcustom =>
    refine .inr ⟨by simpa using hcustom, ?_⟩
    cases declared with
    | none => simp at h
    | some field =>
      simp only at h
      split at h
      · exact absurd h (by simp)
      · next hfilterable =>
        split at h
        · exact absurd h (by simp)
        · next op hop =>
          rw [Option.filter_eq_some_iff] at hop
          split at h
          · exact absurd h (by simp)
          · next hcheck =>
            exact ⟨field, op, rfl, by simpa using hfilterable, hop.1, hop.2, hcheck,
              (Except.ok.inj h).symm⟩

/-- A custom operator is accepted with every operand. -/
theorem readLeaf_of_custom {name key : String} {found : Option Field} {operand : Json}
    (h : scope.hasCustom name key = true) :
    readLeaf scope name found key operand =
      .ok (.custom name (CustomFilters.canonicalKey key) operand) :=
  if_pos h

/-- A legal operator is accepted with an operand that passes the check, if nothing shadows it. -/
theorem readLeaf_of_builtin {name key : String} {field : Field} {op : Operator} {operand : Json}
    (hcustom : scope.hasCustom name key = false) (hfilterable : field.filterable = true)
    (hkey : Operator.ofKey? key = some op)
    (hlegal : scope.registry.isLegal field.kind scope.adapter op = true)
    (hcheck : Operand.check scope.registry scope.limits field op operand = .ok ()) :
    readLeaf scope name (some field) key operand = .ok (.field name op operand) := by
  unfold readLeaf
  rw [if_neg (by simp [hcustom])]
  dsimp only
  rw [if_neg (by simp [hfilterable]), hkey, Option.filter_some, if_pos hlegal]
  dsimp only
  rw [hcheck]

/-- The operators of a field are read one after the other, each counted before it is read. -/
theorem readOperators_cons_eq_ok {name key : String} {declared : Option Field} {operand : Json}
    {rest : List (String × Json)} {leaves : List Filter}
    (h : readOperators scope name declared used ((key, operand) :: rest) = .ok (leaves, used')) :
    used + 1 ≤ scope.limits.maxPredicates ∧ ∃ leaf others,
      readLeaf scope name declared key operand = .ok leaf ∧
      readOperators scope name declared (used + 1) rest = .ok (others, used') ∧
      leaves = leaf :: others := by
  unfold readOperators at h
  split at h
  · exact absurd h (by simp)
  · next hcount =>
    obtain ⟨leaf, hleaf, h⟩ := bind_eq_ok.1 h
    obtain ⟨⟨others, used₁⟩, hrest, h⟩ := bind_eq_ok.1 h
    simp only [pure_eq_ok_iff, Prod.mk.injEq] at h
    obtain ⟨rfl, rfl⟩ := h
    exact ⟨by omega, leaf, others, hleaf, hrest, rfl⟩

/-- The operators of a field are read if the first one is, within the bound, and the rest behind
it. -/
theorem readOperators_cons {name key : String} {declared : Option Field} {operand : Json}
    {rest : List (String × Json)} {leaf : Filter} {others : List Filter}
    (hcount : used + 1 ≤ scope.limits.maxPredicates)
    (hleaf : readLeaf scope name declared key operand = .ok leaf)
    (hrest : readOperators scope name declared (used + 1) rest = .ok (others, used')) :
    readOperators scope name declared used ((key, operand) :: rest) =
      .ok (leaf :: others, used') := by
  rw [readOperators, if_neg (Nat.not_lt.2 hcount), hleaf]
  simp only [hrest, bind, Except.bind, pure, Except.pure]

/-- A field is known, and its value is an object of at least one operator. -/
theorem readField_eq_ok {name : String} {value : Json} {leaves : List Filter}
    (h : readField scope path used name value = .ok (leaves, used')) :
    ((scope.field? name).isSome = true ∨ scope.hasCustomField name = true) ∧ ∃ operators,
      operators ≠ [] ∧ value = .object operators ∧
      readOperators scope name (scope.field? name) used operators = .ok (leaves, used') := by
  unfold readField at h
  simp only at h
  split at h
  · exact absurd h (by simp)
  · next hknown =>
    split at h
    · exact absurd h (by simp)
    · next operators hne =>
      refine ⟨?_, operators, fun e => hne (e ▸ rfl), rfl, h⟩
      cases hfield : scope.field? name <;> simp_all
    · exact absurd h (by simp)

/-- A known field is read if its operators are, of which there is at least one. -/
theorem readField_object {name : String} {operators : List (String × Json)} {leaves : List Filter}
    (hknown : (scope.field? name).isSome = true ∨ scope.hasCustomField name = true)
    (hne : operators ≠ [])
    (hread : readOperators scope name (scope.field? name) used operators = .ok (leaves, used')) :
    readField scope path used name (.object operators) = .ok (leaves, used') := by
  have hnotUnknown : ¬ ((scope.field? name).isNone && !scope.hasCustomField name) = true := by
    rcases hknown with hknown | hknown
    · simp [Option.isSome_iff_ne_none.1 hknown]
    · simp [hknown]
  obtain ⟨first, rest, rfl⟩ := List.exists_cons_of_ne_nil hne
  unfold readField
  dsimp only
  rw [if_neg hnotUnknown, hread]

/-! ### Combinators -/

/-- An object is read at an allowed depth, and is the conjunction of what its members add. -/
theorem readObject_eq_ok {document : Json} {filter : Filter}
    (h : readObject scope depth path used document = .ok (filter, used')) :
    depth ≤ scope.limits.maxDepth ∧ ∃ members parts, document = .object members ∧
      readMembers scope depth path used members = .ok (parts, used') ∧ filter = allOf parts := by
  cases document with
  | object members =>
    unfold readObject at h
    split at h
    · exact absurd h (by simp)
    · next hdepth =>
      obtain ⟨⟨parts, used₁⟩, hparts, h⟩ := bind_eq_ok.1 h
      simp only [pure_eq_ok_iff, Prod.mk.injEq] at h
      obtain ⟨rfl, rfl⟩ := h
      exact ⟨by omega, members, parts, rfl, hparts, rfl⟩
  | _ =>
    unfold readObject at h
    split at h <;> exact absurd h (by simp)

/-- An object at an allowed depth is read if its members are. -/
theorem readObject_object {members : List (String × Json)} {parts : List Filter}
    (hdepth : depth ≤ scope.limits.maxDepth)
    (hread : readMembers scope depth path used members = .ok (parts, used')) :
    readObject scope depth path used (.object members) = .ok (allOf parts, used') := by
  rw [readObject, if_neg (Nat.not_lt.2 hdepth), hread]
  rfl

/-- What one member of an object adds to the conjunction, by its key. -/
inductive ReadsMember (scope : Scope) (depth : Nat) (path : Path) (used : Nat) :
    String → Json → List Filter → Nat → Prop
  | all {items : List Json} {parts : List Filter} {used' : Nat}
      (read : readItems scope (depth + 1) (path ++ [.key "_and"]) 0 used items =
        .ok (parts, used')) :
      ReadsMember scope depth path used "_and" (.array items) (collapseAll parts) used'
  | any {items : List Json} {parts : List Filter} {used' : Nat}
      (read : readItems scope (depth + 1) (path ++ [.key "_or"]) 0 used items =
        .ok (parts, used')) :
      ReadsMember scope depth path used "_or" (.array items) (collapseAny parts) used'
  | not {value : Json} {part : Filter} {used' : Nat}
      (read : readObject scope (depth + 1) (path ++ [.key "_not"]) used value =
        .ok (part, used')) :
      ReadsMember scope depth path used "_not" value [.not part] used'
  | field {name : String} {value : Json} {leaves : List Filter} {used' : Nat}
      (other : name ≠ "_and" ∧ name ≠ "_or" ∧ name ≠ "_not")
      (read : readField scope (path ++ [.key name]) used name value = .ok (leaves, used')) :
      ReadsMember scope depth path used name value leaves used'

/-- Members are read one after the other, and what they add is kept in their order. -/
theorem readMembers_cons_eq_ok {key : String} {value : Json} {rest : List (String × Json)}
    {parts : List Filter}
    (h : readMembers scope depth path used ((key, value) :: rest) = .ok (parts, used')) :
    ∃ own between others, ReadsMember scope depth path used key value own between ∧
      readMembers scope depth path between rest = .ok (others, used') ∧
      parts = own ++ others := by
  -- whatever the member adds, the rest of the object is read behind it
  have rest_eq_ok : ∀ {own : List Filter} {between : Nat},
      (readMembers scope depth path between rest >>= fun result =>
        pure (own ++ result.1, result.2)) = Except.ok (parts, used') →
      ∃ others, readMembers scope depth path between rest = .ok (others, used') ∧
        parts = own ++ others := by
    intro own between h
    obtain ⟨⟨others, used₁⟩, hrest, h⟩ := bind_eq_ok.1 h
    simp only [pure_eq_ok_iff, Prod.mk.injEq] at h
    obtain ⟨rfl, rfl⟩ := h
    exact ⟨others, hrest, rfl⟩
  unfold readMembers at h
  simp only at h
  -- the key decides between the combinators and a field
  split at h
  · next hkey =>
    subst hkey
    split at h
    · obtain ⟨⟨ps, between⟩, hread, h⟩ := bind_eq_ok.1 h
      obtain ⟨others, hrest, rfl⟩ := rest_eq_ok h
      exact ⟨_, between, others, .all hread, hrest, rfl⟩
    · exact absurd h (by simp [bind, Except.bind])
  · next hall =>
    split at h
    · next hkey =>
      subst hkey
      split at h
      · obtain ⟨⟨ps, between⟩, hread, h⟩ := bind_eq_ok.1 h
        obtain ⟨others, hrest, rfl⟩ := rest_eq_ok h
        exact ⟨_, between, others, .any hread, hrest, rfl⟩
      · exact absurd h (by simp [bind, Except.bind])
    · next hany =>
      split at h
      · next hkey =>
        subst hkey
        obtain ⟨⟨p, between⟩, hread, h⟩ := bind_eq_ok.1 h
        obtain ⟨others, hrest, rfl⟩ := rest_eq_ok h
        exact ⟨_, between, others, .not hread, hrest, rfl⟩
      · next hnot =>
        obtain ⟨⟨own, between⟩, hread, h⟩ := bind_eq_ok.1 h
        obtain ⟨others, hrest, rfl⟩ := rest_eq_ok h
        exact ⟨own, between, others, .field ⟨hall, hany, hnot⟩ hread, hrest, rfl⟩

/-- Members are read if the first one is, as the reader takes it, and the rest behind it. -/
theorem readMembers_cons {between : Nat} {key : String} {value : Json} {own others : List Filter}
    {rest : List (String × Json)} (hown : ReadsMember scope depth path used key value own between)
    (hrest : readMembers scope depth path between rest = .ok (others, used')) :
    readMembers scope depth path used ((key, value) :: rest) = .ok (own ++ others, used') := by
  unfold readMembers
  dsimp only
  cases hown with
  | all hread =>
    rw [if_pos rfl]
    simp only [hread, hrest, bind, Except.bind, pure, Except.pure]
  | any hread =>
    rw [if_neg (by decide), if_pos rfl]
    simp only [hread, hrest, bind, Except.bind, pure, Except.pure]
  | not hread =>
    rw [if_neg (by decide), if_neg (by decide), if_pos rfl]
    simp only [hread, hrest, bind, Except.bind, pure, Except.pure]
  | field other hread =>
    obtain ⟨hall, hany, hnot⟩ := other
    rw [if_neg hall, if_neg hany, if_neg hnot]
    simp only [hread, hrest, bind, Except.bind, pure, Except.pure]

/-- An object with a single member that adds a single part is read as this part. -/
theorem readObject_single {key : String} {value : Json} {part : Filter}
    (hdepth : depth ≤ scope.limits.maxDepth)
    (h : ReadsMember scope depth path used key value [part] used') :
    readObject scope depth path used (.single key value) = .ok (part, used') := by
  have hmembers : readMembers scope depth path used [(key, value)] = .ok ([part], used') :=
    readMembers_cons h rfl
  exact readObject_object hdepth hmembers

/-- A field with a single operator is read as the leaf of this operator. -/
theorem readObject_operator {name key : String} {operand : Json} {leaf : Filter}
    (hdepth : depth ≤ scope.limits.maxDepth) (hcount : used + 1 ≤ scope.limits.maxPredicates)
    (other : name ≠ "_and" ∧ name ≠ "_or" ∧ name ≠ "_not")
    (hknown : (scope.field? name).isSome = true ∨ scope.hasCustomField name = true)
    (hleaf : readLeaf scope name (scope.field? name) key operand = .ok leaf) :
    readObject scope depth path used (.single name (.single key operand)) =
      .ok (leaf, used + 1) := by
  have hoperators : readOperators scope name (scope.field? name) used [(key, operand)] =
      .ok ([leaf], used + 1) :=
    readOperators_cons hcount hleaf rfl
  exact readObject_single hdepth (.field other (readField_object hknown (by simp) hoperators))

/-- Items are read one after the other, each as an object of its own. -/
theorem readItems_cons_eq_ok {item : Json} {items : List Json} {parts : List Filter}
    (h : readItems scope depth path index used (item :: items) = .ok (parts, used')) :
    ∃ part between others,
      readObject scope depth (path ++ [.index index]) used item = .ok (part, between) ∧
      readItems scope depth path (index + 1) between items = .ok (others, used') ∧
      parts = part :: others := by
  unfold readItems at h
  obtain ⟨⟨part, between⟩, hpart, h⟩ := bind_eq_ok.1 h
  obtain ⟨⟨others, used₁⟩, hrest, h⟩ := bind_eq_ok.1 h
  simp only [pure_eq_ok_iff, Prod.mk.injEq] at h
  obtain ⟨rfl, rfl⟩ := h
  exact ⟨part, between, others, hpart, hrest, rfl⟩

/-- Items are read if the first one is, and the rest behind it. -/
theorem readItems_cons {between : Nat} {item : Json} {items : List Json} {part : Filter}
    {parts : List Filter}
    (hpart : readObject scope depth (path ++ [.index index]) used item = .ok (part, between))
    (hrest : readItems scope depth path (index + 1) between items = .ok (parts, used')) :
    readItems scope depth path index used (item :: items) = .ok (part :: parts, used') := by
  rw [readItems, hpart]
  simp only [hrest, bind, Except.bind, pure, Except.pure]

/-- A document is `null`, which constrains nothing, or an object at the outermost depth. -/
theorem read_eq_ok {document : Json} {filter : Filter} (h : read scope document = .ok filter) :
    (document = .null ∧ filter = identity) ∨
    ∃ used', readObject scope 0 [] 0 document = .ok (filter, used') := by
  unfold read at h
  split at h
  · exact .inl ⟨rfl, (Except.ok.inj h).symm⟩
  · obtain ⟨⟨_, used'⟩, hread, rfl⟩ := map_eq_ok.1 h
    exact .inr ⟨used', hread⟩

/-- An object that is read at the outermost depth is an accepted document. -/
theorem read_of_readObject {document : Json} {filter : Filter}
    (h : readObject scope 0 [] 0 document = .ok (filter, used')) :
    read scope document = .ok filter := by
  obtain ⟨-, members, -, rfl, -⟩ := readObject_eq_ok h
  rw [read, h]
  · rfl
  · exact nofun

end Criteria.Filter
