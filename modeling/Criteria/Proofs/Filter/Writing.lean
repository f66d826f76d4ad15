import Criteria.Proofs.Filter.Canonical
import Criteria.Proofs.Filter.Limits

/-!
# Writing a filter as a document

Every filter can be written as a document: a combinator as an object with its key alone, a leaf as a
field with a single operator, and the filter that constrains nothing as the empty object. The reader
rewrites as it goes, so it does not give back every filter it is handed in this form. It does give
back those that have the shape of something read, and it needs no more of the limits than the filter
itself takes up.

* `write` — the document of a filter;
* `nesting` — how deep this document nests;
* `readObject_write` — what is written is read back, behind whatever was read before;
* `nesting_of_isObject` — and only at an allowed depth;
* `read_write_iff`, `read_write` — both for whole documents.

A canonical filter survives because each rewriting of the reader is idle on it. Its parts constrain
something, so none of them is filtered out of a conjunction or takes a disjunction with it; there are
several of them, so none stands for its combinator; and the object of a combinator has a single
member, which stands for the object.
-/

namespace Criteria.Filter

variable {scope : Scope}

/-! ### The document of a filter -/

mutual

/-- The document of a filter. -/
def write : Filter → Json
  | .all parts => if parts.isEmpty then .object [] else .single "_and" (.array (writeEach parts))
  | .any parts => .single "_or" (.array (writeEach parts))
  | .not part => .single "_not" (write part)
  | .field name op operand => .single name (.single op.key operand)
  | .custom name key operand => .single name (.single key operand)

/-- The documents of filters in turn. -/
def writeEach : List Filter → List Json
  | [] => []
  | part :: parts => write part :: writeEach parts

end

theorem write_ne_null (filter : Filter) : filter.write ≠ .null := by
  cases filter with
  | all parts =>
    rw [write]
    split <;> exact Json.noConfusion
  | _ =>
    rw [write]
    exact Json.noConfusion

mutual

/-- How deep the document of a filter nests: as deep as the filter itself, but the filter that
constrains nothing is written without any nesting. -/
def nesting : Filter → Nat
  | .all parts => if parts.isEmpty then 0 else 1 + maxNesting parts
  | .any parts => 1 + maxNesting parts
  | .not part => 1 + nesting part
  | .field .. => 0
  | .custom .. => 0

/-- The greatest nesting in a list, zero for an empty one. -/
def maxNesting : List Filter → Nat
  | [] => 0
  | part :: parts => max (nesting part) (maxNesting parts)

end

theorem write_all {parts : List Filter} (hne : parts ≠ []) :
    write (.all parts) = .single "_and" (.array (writeEach parts)) := by
  rw [write, if_neg (by simpa using hne)]

theorem nesting_all {parts : List Filter} (hne : parts ≠ []) :
    nesting (.all parts) = 1 + maxNesting parts := by
  rw [nesting, if_neg (by simpa using hne)]

/-- The document of a filter nests at most as deep as the filter. -/
example :
    let filter : Filter := .not (.any [.field "age" .gt (.int 1), .not (.all [])])
    filter.write = .object [("_not", .object [("_or", .array
      [.object [("age", .object [("_gt", .int 1)])], .object [("_not", .object [])]])])] ∧
      filter.nesting = 3 ∧ filter.depth = 4 :=
  ⟨rfl, rfl, rfl⟩

mutual

theorem nesting_le_depth (filter : Filter) : filter.nesting ≤ filter.depth := by
  match filter with
  | .all parts =>
    have hparts := maxNesting_le_maxDepth parts
    rw [nesting, depth]
    split <;> omega
  | .any parts =>
    have hparts := maxNesting_le_maxDepth parts
    rw [nesting, depth]
    omega
  | .not part =>
    have hpart := nesting_le_depth part
    rw [nesting, depth]
    omega
  | .field _ _ _ => exact Nat.zero_le _
  | .custom _ _ _ => exact Nat.zero_le _

theorem maxNesting_le_maxDepth (parts : List Filter) : maxNesting parts ≤ maxDepth parts := by
  match parts with
  | [] => exact Nat.zero_le _
  | part :: parts =>
    have hpart := nesting_le_depth part
    have hparts := maxNesting_le_maxDepth parts
    rw [maxNesting, maxDepth]
    omega

end

/-! ### What the reader leaves alone -/

theorem IsCanonical.of_not {part : Filter} (h : IsCanonical (.not part)) : IsCanonical part := by
  cases h.canonical rfl with
  | not inner => exact .inr inner
  | notIdentity => exact .inl rfl

theorem collapse_of_several {combine : List Filter → Filter} {parts : List Filter}
    (several : 2 ≤ parts.length) : collapse combine parts = [combine parts] := by
  match parts with
  | [] => cases several
  | [part] => exact absurd several (by simp)
  | part :: next :: rest => rfl

theorem collapseAll_of_canonical {parts : List Filter} (several : 2 ≤ parts.length)
    (each : ∀ part ∈ parts, Canonical part) : collapseAll parts = [.all parts] := by
  have hkept : (parts.filter fun part => !part.isIdentity) = parts :=
    List.filter_eq_self.2 fun part hpart => by rw [(each part hpart).isIdentity, Bool.not_false]
  rw [collapseAll, hkept, collapse_of_several several]

theorem collapseAny_of_canonical {parts : List Filter} (several : 2 ≤ parts.length)
    (each : ∀ part ∈ parts, Canonical part) : collapseAny parts = [.any parts] := by
  have hnone : ¬ parts.any isIdentity = true := by
    intro hany
    obtain ⟨part, hpart, hidentity⟩ := List.any_eq_true.1 hany
    rw [(each part hpart).isIdentity] at hidentity
    cases hidentity
  rw [collapseAny, if_neg hnone, collapse_of_several several]

/-! ### What is written is read back -/

mutual

/-- **A canonical filter of checked leaves is read back**, if its nesting and its leaves fit into
what is left of the limits. -/
theorem readObject_write {depth used : Nat} {path : Path} (filter : Filter)
    (hcanonical : IsCanonical filter) (hleaves : ∀ leaf ∈ filter.leaves, Checked scope leaf)
    (hdepth : depth + filter.nesting ≤ scope.limits.maxDepth)
    (hcount : used + filter.predicateCount ≤ scope.limits.maxPredicates) :
    readObject scope depth path used filter.write =
      .ok (filter, used + filter.predicateCount) := by
  match filter with
  | .all [] =>
    -- the empty object has no members to be read
    have hmembers : readMembers scope depth path used [] = .ok ([], used) := rfl
    exact readObject_object hdepth hmembers
  | .all (part :: parts) =>
    cases hcanonical.canonical rfl with
    | all several each =>
      rw [leaves_all] at hleaves
      rw [nesting_all (List.cons_ne_nil _ _)] at hdepth
      rw [predicateCount] at hcount ⊢
      rw [write_all (List.cons_ne_nil _ _)]
      refine readObject_single (by omega) ?_
      rw [← collapseAll_of_canonical several each]
      exact .all (readItems_writeEach (part :: parts) each hleaves (by omega) hcount)
  | .any parts =>
    cases hcanonical.canonical rfl with
    | any several each =>
      rw [leaves_any] at hleaves
      rw [nesting] at hdepth
      rw [predicateCount] at hcount ⊢
      rw [write]
      refine readObject_single (by omega) ?_
      rw [← collapseAny_of_canonical several each]
      exact .any (readItems_writeEach parts each hleaves (by omega) hcount)
  | .not part =>
    rw [leaves_not] at hleaves
    rw [nesting] at hdepth
    rw [predicateCount] at hcount ⊢
    rw [write]
    refine readObject_single (by omega) (.not ?_)
    exact readObject_write part hcanonical.of_not hleaves (by omega) hcount
  | .field name op operand =>
    rw [predicateCount] at hcount ⊢
    have hchecked : Checked scope (.field name op operand) := hleaves _ (by simp)
    cases hchecked with
    | field isKey isDeclared filterable unshadowed legal check =>
      refine readObject_operator hdepth hcount isKey (.inl (by rw [isDeclared]; rfl)) ?_
      rw [isDeclared]
      exact readLeaf_of_builtin unshadowed filterable (Operator.ofKey?_key op) legal check
  | .custom name key operand =>
    rw [predicateCount] at hcount ⊢
    have hchecked : Checked scope (.custom name key operand) := hleaves _ (by simp)
    obtain ⟨isKey, ⟨rest, hrest⟩, registered⟩ := checked_custom_iff.1 hchecked
    refine readObject_operator hdepth hcount isKey (.inr (hasCustomField_of_hasCustom registered))
      ?_
    rw [readLeaf_of_custom registered, CustomFilters.canonicalKey_of_toList hrest]

theorem readItems_writeEach {depth used index : Nat} {path : Path} (parts : List Filter)
    (each : ∀ part ∈ parts, Canonical part)
    (hleaves : ∀ leaf ∈ parts.flatMap leaves, Checked scope leaf)
    (hdepth : depth + maxNesting parts ≤ scope.limits.maxDepth)
    (hcount : used + predicateCounts parts ≤ scope.limits.maxPredicates) :
    readItems scope depth path index used (writeEach parts) =
      .ok (parts, used + predicateCounts parts) := by
  match parts with
  | [] => rfl
  | part :: parts =>
    obtain ⟨hfirst, hrest⟩ := List.forall_mem_cons.1 each
    rw [List.flatMap_cons, List.forall_mem_append] at hleaves
    rw [maxNesting] at hdepth
    rw [predicateCounts, ← Nat.add_assoc] at hcount ⊢
    rw [writeEach]
    exact readItems_cons
      (readObject_write part (.inr hfirst) hleaves.1 (by omega) (by omega))
      (readItems_writeEach parts hrest hleaves.2 (by omega) hcount)

end

/-! ### The nesting that a written filter needs -/

theorem IsObject.depth_le {depth : Nat} {document : Json} (h : IsObject scope depth document) :
    depth ≤ scope.limits.maxDepth := by
  cases h with
  | object within => exact within

/-- A list stands for a combinator, and its items are objects one level deeper. -/
theorem IsMember.of_array {depth : Nat} {key : String} {items : List Json}
    (h : IsMember scope depth key (.array items)) :
    ∀ item ∈ items, IsObject scope (depth + 1) item := by
  cases h with
  | all each => exact each
  | any each => exact each
  | not inner => cases inner

theorem IsMember.of_not {depth : Nat} {key : String} {part : Json}
    (h : IsMember scope depth key part) (hkey : key = "_not") : IsObject scope (depth + 1) part := by
  cases h with
  | all => exact absurd hkey (by decide)
  | any => exact absurd hkey (by decide)
  | not inner => exact inner
  | field isField => exact absurd hkey isField.2.2

theorem IsObject.of_single {depth : Nat} {key : String} {value : Json}
    (h : IsObject scope depth (.single key value)) : IsMember scope depth key value := by
  cases h with
  | object _ each => exact each (key, value) List.mem_cons_self

mutual

/-- The document of a canonical filter is of the grammar only if its nesting is allowed. -/
theorem nesting_of_isObject {depth : Nat} (filter : Filter) (hcanonical : IsCanonical filter)
    (h : IsObject scope depth filter.write) :
    depth + filter.nesting ≤ scope.limits.maxDepth := by
  match filter with
  | .all [] => exact h.depth_le
  | .all (part :: parts) =>
    cases hcanonical.canonical rfl with
    | all several each =>
      rw [write_all (List.cons_ne_nil _ _)] at h
      have hparts := maxNesting_of_isObject (part :: parts) (List.cons_ne_nil _ _) each
        h.of_single.of_array
      rw [nesting_all (List.cons_ne_nil _ _)]
      omega
  | .any parts =>
    cases hcanonical.canonical rfl with
    | any several each =>
      rw [write] at h
      have hne : parts ≠ [] := List.ne_nil_of_length_pos (Nat.lt_of_succ_lt several)
      have hparts := maxNesting_of_isObject parts hne each h.of_single.of_array
      rw [nesting]
      omega
  | .not part =>
    rw [write] at h
    have hpart := nesting_of_isObject part hcanonical.of_not (h.of_single.of_not rfl)
    rw [nesting]
    omega
  | .field _ _ _ => exact h.depth_le
  | .custom _ _ _ => exact h.depth_le

theorem maxNesting_of_isObject {depth : Nat} (parts : List Filter) (hne : parts ≠ [])
    (each : ∀ part ∈ parts, Canonical part)
    (h : ∀ item ∈ writeEach parts, IsObject scope depth item) :
    depth + maxNesting parts ≤ scope.limits.maxDepth := by
  match parts with
  | [] => exact absurd rfl hne
  | [part] =>
    rw [writeEach, List.forall_mem_cons] at h
    have hpart := nesting_of_isObject part (.inr (each part List.mem_cons_self)) h.1
    rw [maxNesting, maxNesting, Nat.max_zero]
    exact hpart
  | part :: next :: rest =>
    rw [writeEach, List.forall_mem_cons] at h
    obtain ⟨hfirst, hrest⟩ := List.forall_mem_cons.1 each
    have hpart := nesting_of_isObject part (.inr hfirst) h.1
    have hparts := maxNesting_of_isObject (next :: rest) (List.cons_ne_nil _ _) hrest h.2
    rw [maxNesting]
    omega

end

/-! ### Whole documents -/

/-- The document of a canonical filter of checked leaves is read as this filter exactly if its
nesting is allowed and there are not too many leaves. -/
theorem read_write_iff {filter : Filter} (hcanonical : IsCanonical filter)
    (hleaves : ∀ leaf ∈ filter.leaves, Checked scope leaf) :
    read scope filter.write = .ok filter ↔
      filter.nesting ≤ scope.limits.maxDepth ∧
        filter.predicateCount ≤ scope.limits.maxPredicates := by
  constructor
  · intro h
    refine ⟨?_, predicateCount_of_read h⟩
    rcases (exists_read_iff scope filter.write).1 ⟨filter, h⟩ with hnull | ⟨hobject, -⟩
    · exact absurd hnull filter.write_ne_null
    · have hnesting := nesting_of_isObject filter hcanonical hobject
      rwa [Nat.zero_add] at hnesting
  · rintro ⟨hnesting, hcount⟩
    exact read_of_readObject (readObject_write filter hcanonical hleaves (by omega) (by omega))

/-- **Every canonical filter is reached from its document.** If the leaves of the filter would pass
the checks of the reader, and if it is no deeper and has no more leaves than the limits allow, then
the reader gives back exactly this filter. -/
theorem read_write {filter : Filter} (hcanonical : IsCanonical filter)
    (hleaves : ∀ leaf ∈ filter.leaves, Checked scope leaf)
    (hdepth : filter.depth ≤ scope.limits.maxDepth)
    (hcount : filter.predicateCount ≤ scope.limits.maxPredicates) :
    read scope filter.write = .ok filter :=
  (read_write_iff hcanonical hleaves).2 ⟨Nat.le_trans filter.nesting_le_depth hdepth, hcount⟩

/-- A filter with every sort of node takes up the limits to the last, and is read back. -/
theorem read_write_exact :
    let limits : Limits := { maxDepth := 3, maxPredicates := 3 }
    let scope : Scope :=
      ⟨"User", ⟨.ofList [("User", ⟨"User", [.declare "age" .integer]⟩)]⟩, .empty, .sql .sqlite,
        CustomFilters.empty.register "User" "name" "sounds_like" fun _ => .ok (.sql []), limits⟩
    let filter : Filter :=
      .any [.custom "name" "_sounds_like" (.string "Ada"), .not identity,
        .not (.all [.field "age" .gt (.int 1), .field "age" .isIn (.array [.int 2, .int 3])])]
    IsCanonical filter ∧ (∀ leaf ∈ filter.leaves, Checked scope leaf) ∧
      filter.depth = limits.maxDepth ∧ filter.predicateCount = limits.maxPredicates ∧
      read scope filter.write = .ok filter := by
  intro limits scope filter
  have hcanonical : IsCanonical filter := by
    have hinner : Canonical (.all [.field "age" .gt (.int 1),
        .field "age" .isIn (.array [.int 2, .int 3])]) :=
      .all (Nat.le_refl 2) (by simp [Canonical.field])
    refine .inr (.any (by decide) ?_)
    simp [Canonical.custom, Canonical.notIdentity, hinner.not]
  have hleaves : ∀ leaf ∈ filter.leaves, Checked scope leaf := by
    have hname : IsFieldKey "name" := ⟨by decide, by decide, by decide⟩
    have hage : IsFieldKey "age" := ⟨by decide, by decide, by decide⟩
    simp only [filter, leaves, leavesAll, identity, List.append_nil, List.nil_append,
      List.cons_append, List.forall_mem_cons]
    exact ⟨checked_custom_iff.2 ⟨hname, ⟨_, rfl⟩, rfl⟩, .field hage rfl rfl rfl rfl rfl,
      .field hage rfl rfl rfl rfl rfl, List.forall_mem_nil _⟩
  exact ⟨hcanonical, hleaves, rfl, rfl, read_write hcanonical hleaves (by decide) (by decide)⟩

end Criteria.Filter
