import Criteria.Proofs.Filter.Failure
import Criteria.Proofs.Filter.Meaning
import Criteria.Proofs.Search.Content

/-!
# Search documents keep the meaning of filters

A search document is true or false of a hit by the rules of `bool` queries. All that the compiler
writes around the documents of leaves are such queries, and so are the documents of some leaves:
those of negated operators, of elements of an array and of nearness to a point. A `bool` query means
something else when its clauses stand together than when they stand apart, because the number of
optional clauses that have to hold depends on whether anything is required. What the compiler writes
has required clauses only, or excluded ones only, or optional ones with an explicit number, so that
nesting never changes what a leaf means.

* `Search.holds` — the value of a document, given the values of all that is no `bool` query;
* `holds_negation`, `holds_allOf`, `holds_anyOf` — what the compiler writes around documents;
* `Filter.leafValues` — each leaf has the value of its own document;
* `compile_search_meaning` — the document of a filter has the value of the filter.
-/

namespace Criteria

namespace Search

/-! ### The value of a document -/

/-- The keys under which a `bool` query has its clauses. -/
def clauseNames : List String := ["filter", "should", "must_not"]

/-- The key of the number of optional clauses that have to hold. -/
def minimumName : String := "minimum_should_match"

/-- A number of clauses. -/
def natural? : Json → Option Nat
  | .number (.int (.ofNat n)) => some n
  | _ => none

/-- The number of optional clauses that have to hold, where it is given. -/
def minimum? (members : Json.Members) : Option Nat := (members.lookup minimumName).bind natural?

/-- Whether a `bool` query has nothing but clauses and a number of them. -/
def isPlain (members : Json.Members) : Bool :=
  members.all fun member =>
    clauseNames.contains member.1 ||
      (member.1 == minimumName && (natural? member.2).isSome)

/-- The value of a `bool` query by those of its clauses. -/
def boolValue (required optional excluded : List Bool) (minimum : Option Nat) : Bool :=
  let needed := minimum.getD (if required.isEmpty && !optional.isEmpty then 1 else 0)
  required.all id && !excluded.any id && decide (needed ≤ optional.count true)

section Holds

variable (atom : Json → Bool)

mutual

/-- The value of a document. What is neither constant nor a plain `bool` query has the value that
`atom` gives it. -/
def holds : Json → Bool
  | .object [(key, body)] =>
    if key = "match_all" then true
    else if key = "match_none" then false
    else if key = "bool" then
      match body with
      | .object members =>
        if isPlain members then
          boolValue (clauseValues "filter" members) (clauseValues "should" members)
            (clauseValues "must_not" members) (minimum? members)
        else atom (.object [(key, body)])
      | _ => atom (.object [(key, body)])
    else atom (.object [(key, body)])
  | document => atom document

/-- The values of the clauses under a key. A single clause may stand there without a list. -/
def clauseValues (name : String) : List (String × Json) → List Bool
  | [] => []
  | (key, value) :: rest =>
    let alone := holds value
    let listed :=
      match value with
      | .array items => some (itemValues items)
      | _ => none
    (if key = name then listed.getD [alone] else []) ++ clauseValues name rest

/-- The values of documents in turn. -/
def itemValues : List Json → List Bool
  | [] => []
  | item :: items => holds item :: itemValues items

end

theorem itemValues_eq_map (items : List Json) : itemValues atom items = items.map (holds atom) := by
  induction items with
  | nil => rw [itemValues, List.map_nil]
  | cons item items ih => rw [itemValues, ih, List.map_cons]

theorem clauseValues_cons_array (name key : String) (items : List Json)
    (rest : List (String × Json)) :
    clauseValues atom name ((key, .array items) :: rest) =
      (if key = name then items.map (holds atom) else []) ++ clauseValues atom name rest := by
  rw [clauseValues.eq_def, ← itemValues_eq_map]
  rfl

theorem clauseValues_cons_of_ne {name key : String} (hkey : key ≠ name) (value : Json)
    (rest : List (String × Json)) :
    clauseValues atom name ((key, value) :: rest) = clauseValues atom name rest := by
  rw [clauseValues.eq_def]
  dsimp only
  rw [if_neg hkey, List.nil_append]

theorem clauseValues_cons (name : String) (member : String × Json) (rest : List (String × Json)) :
    clauseValues atom name (member :: rest) =
      clauseValues atom name [member] ++ clauseValues atom name rest := by
  rw [clauseValues.eq_def, clauseValues.eq_def atom name [member]]
  dsimp only
  rw [clauseValues.eq_def atom name [], List.append_nil]

theorem clauseValues_append (name : String) (members others : List (String × Json)) :
    clauseValues atom name (members ++ others) =
      clauseValues atom name members ++ clauseValues atom name others := by
  induction members with
  | nil => rw [clauseValues, List.nil_append, List.nil_append]
  | cons member members ih =>
    rw [List.cons_append, clauseValues_cons, ih, ← List.append_assoc, ← clauseValues_cons]

/-- A clause that is written has the values of its documents. -/
theorem clauseValues_clause (name key : String) (documents : List Json) :
    clauseValues atom name (Query.clause key documents) =
      if key = name then documents.map (holds atom) else [] := by
  unfold Query.clause
  cases documents with
  | nil => simp [clauseValues]
  | cons document documents =>
    rw [List.isEmpty_cons, if_neg Bool.false_ne_true, clauseValues_cons_array, clauseValues,
      List.append_nil]

end Holds

/-! ### What is written is plain -/

/-- The members of a `bool` query that is written, with the documents of its clauses. -/
def boolMembers (required optional excluded : List Json) (minimum : Option Nat) : Json.Members :=
  Query.clause "filter" required ++ Query.clause "should" optional ++
    Query.clause "must_not" excluded ++
    (minimum.map fun n => (minimumName, Json.nat n)).toList

theorem toJson_bool (required optional excluded : List Query) (minimum : Option Nat) :
    (Query.bool required optional excluded minimum).toJson =
      .object [("bool", .object (boolMembers (required.map Query.toJson) (optional.map Query.toJson)
        (excluded.map Query.toJson) minimum))] := by
  rw [Query.toJson, Query.toJsons_eq_map, Query.toJsons_eq_map, Query.toJsons_eq_map]
  rfl

section Members

variable (required optional excluded : List Json) (minimum : Option Nat)

theorem isPlain_clause {key : String} (hkey : key ∈ clauseNames) (documents : List Json) :
    isPlain (Query.clause key documents) = true := by
  unfold Query.clause
  split
  · rfl
  · simp [isPlain, hkey]

theorem isPlain_boolMembers :
    isPlain (boolMembers required optional excluded minimum) = true := by
  have hlast : isPlain (minimum.map fun n => (minimumName, Json.nat n)).toList = true := by
    cases minimum <;> rfl
  unfold boolMembers isPlain
  rw [List.all_append, List.all_append, List.all_append, Bool.and_eq_true, Bool.and_eq_true,
    Bool.and_eq_true]
  exact ⟨⟨⟨isPlain_clause (by decide) required, isPlain_clause (by decide) optional⟩,
    isPlain_clause (by decide) excluded⟩, hlast⟩

/-- A clause is no number of clauses. -/
theorem lookup_clause {key : String} (hkey : key ∈ clauseNames) (documents : List Json) :
    (Query.clause key documents).lookup minimumName = none := by
  unfold Query.clause
  split
  · rfl
  · have hbeq : (minimumName == key) = false := by
      refine beq_false_of_ne ?_
      rintro rfl
      exact absurd hkey (by decide)
    rw [List.lookup_cons, hbeq]
    rfl

theorem minimum?_boolMembers :
    minimum? (boolMembers required optional excluded minimum) = minimum := by
  unfold minimum? boolMembers
  rw [List.lookup_append, List.lookup_append, List.lookup_append, lookup_clause (by decide),
    lookup_clause (by decide), lookup_clause (by decide)]
  cases minimum <;> rfl

/-- The number, if there is one, is not among the values of clauses. -/
theorem clauseValues_boolMembers (atom : Json → Bool) {name : String} (hname : name ∈ clauseNames) :
    clauseValues atom name (boolMembers required optional excluded minimum) =
      (if "filter" = name then required.map (holds atom) else []) ++
        (if "should" = name then optional.map (holds atom) else []) ++
        (if "must_not" = name then excluded.map (holds atom) else []) := by
  have hlast : clauseValues atom name (minimum.map fun n => (minimumName, Json.nat n)).toList =
      [] := by
    have hne : minimumName ≠ name := by
      rintro rfl
      exact absurd hname (by decide)
    cases minimum with
    | none => rfl
    | some n => exact clauseValues_cons_of_ne atom hne _ _
  unfold boolMembers
  rw [clauseValues_append, clauseValues_append, clauseValues_append, hlast, List.append_nil,
    clauseValues_clause, clauseValues_clause, clauseValues_clause]

end Members

/-! ### The values of queries -/

variable (atom : Json → Bool)

/-- The value of a query is that of its document. -/
def value (query : Query) : Bool := holds atom query.toJson

@[simp] theorem value_everything : value atom .everything = true := rfl

@[simp] theorem value_nothing : value atom .nothing = false := rfl

/-- A `bool` query has the value of its parts, by the rules of such queries. -/
theorem value_bool (required optional excluded : List Query) (minimum : Option Nat) :
    value atom (.bool required optional excluded minimum) =
      boolValue (required.map (value atom)) (optional.map (value atom)) (excluded.map (value atom))
        minimum := by
  have hparts : ∀ queries : List Query,
      (queries.map Query.toJson).map (holds atom) = queries.map (value atom) :=
    fun queries => List.map_map
  rw [value, toJson_bool, holds, if_neg (by decide), if_neg (by decide), if_pos rfl,
    if_pos (isPlain_boolMembers ..), minimum?_boolMembers,
    clauseValues_boolMembers _ _ _ _ _ (by decide), clauseValues_boolMembers _ _ _ _ _ (by decide),
    clauseValues_boolMembers _ _ _ _ _ (by decide)]
  simp [hparts]

/-- The same optional part decides where nothing is required, and nothing otherwise. -/
example :
    let place : Query := .present "place"
    let name : Query := .present "name"
    let atom : Json → Bool := fun document => document == place.toJson
    (value atom (.bool [] [name] [] none), value atom (.bool [place] [name] [] none)) =
      (false, true) := by
  decide

theorem value_negation (query : Query) : value atom (Query.negation query) = !value atom query := by
  rw [Query.negation, value_bool]
  simp [boolValue]

/-- Several parts are required without optional ones, so nothing else has to hold. -/
theorem value_allOf (queries : List Query) :
    value atom (Query.allOf queries) = (queries.map (value atom)).all id := by
  match queries with
  | [] => exact value_everything atom
  | [query] => simp [Query.allOf]
  | first :: next :: rest =>
    change value atom (.bool (first :: next :: rest) [] [] none) = _
    rw [value_bool]
    simp [boolValue]

/-- Several parts are optional with one that has to hold. -/
theorem value_anyOf (queries : List Query) :
    value atom (Query.anyOf queries) = (queries.map (value atom)).any id := by
  match queries with
  | [] => exact value_nothing atom
  | [query] => simp [Query.anyOf]
  | first :: next :: rest =>
    change value atom (.bool [] (first :: next :: rest) [] (some 1)) = _
    rw [value_bool]
    -- nothing is required or excluded, and one optional part has to hold
    generalize (first :: next :: rest).map (value atom) = values
    have hone : decide (1 ≤ values.count true) = values.any id := by
      rw [Bool.eq_iff_iff, decide_eq_true_iff, List.any_eq_true]
      exact (List.count_pos_iff).trans (by simp)
    simpa [boolValue] using hone

end Search

namespace Filter

open Search (Query holds value)

variable {scope : Scope}

/-! ### The values of leaves -/

/-- The document of a filter that compiles to one. -/
def document? (scope : Scope) (filter : Filter) : Option Json :=
  match filter.compile scope with
  | .ok predicate => predicate.document?
  | .error _ => none

/-- Each leaf has the value of its own document. -/
def leafValues (scope : Scope) (atom : Json → Bool) : Valuation Bool where
  field name op operand := ((Filter.field name op operand).document? scope).any (holds atom)
  custom name key operand := ((Filter.custom name key operand).document? scope).any (holds atom)

theorem document?_of_lower {filter : Filter} {query : Query} {values : List Json}
    (h : lower scope 0 filter = .ok (.document query, values)) :
    filter.document? scope = some query.toJson := by
  have hcompile : filter.compile scope = .ok ⟨scope.adapter, .document query, values⟩ := by
    rw [compile, h]
    rfl
  rw [document?, hcompile]
  rfl

/-- Nothing is bound on the search index, so a leaf does not depend on what was bound before it. -/
theorem compileField_search (hadapter : scope.adapter = .search) (bound : Nat) (name : String)
    (op : Operator) (operand : Json) :
    compileField scope bound name op operand = compileField scope 0 name op operand := by
  unfold compileField
  rw [hadapter]
  rfl

theorem compileCustom_search (hadapter : scope.adapter = .search) (bound : Nat)
    (name key : String) (operand : Json) :
    compileCustom scope bound name key operand = compileCustom scope 0 name key operand := by
  unfold compileCustom ofCustom
  rw [hadapter]

/-- What is compiled for the search index is a query. -/
theorem exists_query_of_lower (hadapter : scope.adapter = .search) {filter : Filter} {bound : Nat}
    {fragment : Fragment} {values : List Json}
    (h : lower scope bound filter = .ok (fragment, values)) :
    ∃ query, fragment = .document query := by
  have haccepts := accepts_of_lower h
  rw [hadapter] at haccepts
  cases fragment with
  | sql condition => cases haccepts
  | document query => exact ⟨query, rfl⟩

theorem mapM_expectQuery (queries : List Query) :
    (queries.map Fragment.document).mapM Fragment.expectQuery = .ok queries := by
  refine mapM_map_eq_ok (fun query => ?_) queries
  rfl

/-! ### The values of filters -/

mutual

/-- **What a filter is compiled to has the value of the filter.** -/
theorem value_of_lower (hadapter : scope.adapter = .search) (atom : Json → Bool) (filter : Filter)
    {bound : Nat} {query : Query} {values : List Json}
    (h : lower scope bound filter = .ok (.document query, values)) :
    value atom query = eval (leafValues scope atom) filter := by
  cases filter with
  | all parts =>
    obtain ⟨fragments, hparts, hwhole⟩ := lower_all_eq_ok h
    obtain ⟨queries, rfl, hvalues⟩ := values_of_lowerAll hadapter atom parts hparts
    -- the parts are queries, so putting them together cannot fail
    rw [hadapter, Fragment.all, mapM_expectQuery] at hwhole
    obtain rfl := Fragment.document.inj (Except.ok.inj hwhole)
    rw [Search.value_allOf, hvalues, eval_all, conj_eq_all]
  | any parts =>
    obtain ⟨fragments, hparts, hwhole⟩ := lower_any_eq_ok h
    obtain ⟨queries, rfl, hvalues⟩ := values_of_lowerAll hadapter atom parts hparts
    rw [hadapter, Fragment.any, mapM_expectQuery] at hwhole
    obtain rfl := Fragment.document.inj (Except.ok.inj hwhole)
    rw [Search.value_anyOf, hvalues, eval_any, disj_eq_any]
  | not part =>
    obtain ⟨inner, hpart, hwhole⟩ := lower_not_eq_ok h
    obtain ⟨query, rfl⟩ := exists_query_of_lower hadapter hpart
    rw [hadapter] at hwhole
    obtain rfl := Fragment.document.inj (Except.ok.inj hwhole)
    rw [Search.value_negation, value_of_lower hadapter atom part hpart, eval_not]
    rfl
  | field name op operand =>
    -- the leaf has the same document here as it has alone
    rw [lower, compileField_search hadapter, ← lower] at h
    have hdocument := document?_of_lower h
    change value atom query = ((Filter.field name op operand).document? scope).any (holds atom)
    rw [hdocument]
    rfl
  | custom name key operand =>
    rw [lower, compileCustom_search hadapter, ← lower] at h
    have hdocument := document?_of_lower h
    change value atom query = ((Filter.custom name key operand).document? scope).any (holds atom)
    rw [hdocument]
    rfl
termination_by sizeOf filter

theorem values_of_lowerAll (hadapter : scope.adapter = .search) (atom : Json → Bool)
    (parts : List Filter) {bound : Nat} {fragments : List Fragment} {values : List Json}
    (h : lowerAll scope bound parts = .ok (fragments, values)) :
    ∃ queries : List Query, fragments = queries.map .document ∧
      queries.map (value atom) = parts.map (eval (leafValues scope atom)) := by
  cases parts with
  | nil =>
    obtain ⟨rfl, -⟩ := lowerAll_nil_eq_ok h
    exact ⟨[], rfl, rfl⟩
  | cons part rest =>
    obtain ⟨first, _, others, _, hpart, hrest, rfl, -⟩ := lowerAll_cons_eq_ok h
    obtain ⟨query, rfl⟩ := exists_query_of_lower hadapter hpart
    obtain ⟨queries, rfl, hvalues⟩ := values_of_lowerAll hadapter atom rest hrest
    refine ⟨query :: queries, rfl, ?_⟩
    rw [List.map_cons, List.map_cons, hvalues, value_of_lower hadapter atom part hpart]
termination_by sizeOf parts

end

/-- The leaves of a filter that compiles compile to documents of their own. -/
theorem exists_document_of_leaf (hadapter : scope.adapter = .search) {filter : Filter}
    {predicate : Predicate} (h : filter.compile scope = .ok predicate) {leaf : Filter}
    (hleaf : leaf ∈ filter.leaves) : ∃ document, leaf.document? scope = some document := by
  -- a filter fails as the first of its leaves that does, so none of these fails
  have hnone : failure? (filter.compile scope) = none := by rw [h, failure?_ok]
  rw [failure?_compile, List.findSome?_eq_none_iff] at hnone
  cases hcompile : leaf.compile scope with
  | error fault =>
    have hfailure := hnone leaf hleaf
    rw [hcompile] at hfailure
    cases hfailure
  | ok own =>
    obtain ⟨⟨fragment, values⟩, hlower, -⟩ := bind_eq_ok.1 hcompile
    obtain ⟨query, rfl⟩ := exists_query_of_lower hadapter hlower
    exact ⟨query.toJson, document?_of_lower hlower⟩

/-- **Compiling for the search index keeps the meaning.** A filter that compiles has a document, its
leaves have documents of their own, and whatever documents that are no plain `bool` query are taken
for, the document of the filter is true exactly if the filter is, each leaf being as true as its own
document. -/
theorem compile_search_meaning (hadapter : scope.adapter = .search) {filter : Filter}
    {predicate : Predicate} (h : filter.compile scope = .ok predicate) :
    (∀ leaf ∈ filter.leaves, ∃ document, leaf.document? scope = some document) ∧
      ∃ document, predicate.document? = some document ∧
        ∀ atom, holds atom document = eval (leafValues scope atom) filter := by
  refine ⟨fun leaf hleaf => exists_document_of_leaf hadapter h hleaf, ?_⟩
  obtain ⟨⟨fragment, values⟩, hlower, hpredicate⟩ := bind_eq_ok.1 h
  obtain ⟨query, rfl⟩ := exists_query_of_lower hadapter hlower
  obtain rfl := Except.ok.inj hpredicate
  exact ⟨query.toJson, rfl, fun atom => value_of_lower hadapter atom filter hlower⟩

/-- Leaves that are `bool` queries themselves, one of them with optional parts alone, below a
negation, a disjunction and a conjunction, and next to leaves that are none. -/
theorem compile_search_meaning_nested :
    let entity : Entity := ⟨"Shop", [.declare "name" .string, .declare "age" .integer,
      .declare "tags" .array, .declare "place" .geoPoint]⟩
    let custom : CustomFilters :=
      CustomFilters.empty.register "Shop" "name" "sounds_like" fun call =>
        .ok (.document (.single "bool" (.single "should"
          (.array [.single "fuzzy" call.operand, .single "prefix" call.operand]))))
    let scope : Scope := ⟨"Shop", ⟨.ofList [("Shop", entity)]⟩, .empty, .search, custom, {}⟩
    let near : Json := .object
      [("lat", .int 1), ("lon", .int 2), ("pivot", .string "1km")]
    let filter : Filter :=
      .all [.field "place" .near near,
        .not (.any [.field "age" .neq (.int 3), .field "age" .notIn (.array [.int 4]),
          .all [.custom "name" "_sounds_like" (.string "ay"), .field "name" .isNull (.bool true)]]),
        .any [.not (.field "place" .near near), .custom "name" "_sounds_like" (.string "bee")],
        .field "tags" .contains (.array [.string "a", .string "b"])]
    ∃ predicate document, filter.compile scope = .ok predicate ∧
      predicate.document? = some document ∧
      (∀ leaf ∈ filter.leaves, ∃ document, leaf.document? scope = some document) ∧
      ∀ atom, holds atom document = eval (leafValues scope atom) filter := by
  intro entity custom scope near filter
  obtain ⟨predicate, hcompile⟩ : ∃ predicate, filter.compile scope = .ok predicate := ⟨_, rfl⟩
  obtain ⟨hleaves, document, hdocument, hmeaning⟩ := compile_search_meaning rfl hcompile
  exact ⟨predicate, document, hcompile, hdocument, hleaves, hmeaning⟩

end Filter

end Criteria
