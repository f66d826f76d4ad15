import Criteria.Proofs.Search.Meaning

/-!
# Keys of query documents

The keys of a query document are words of the query language, paths of fields, and whatever keys
are inside the values that it has as they are. Words and paths apart, a combination has the keys of
its parts, and the document of a leaf those of its operand; only the operators on points do not
take their operand over as it is.

* `Json.HasKey` — a key occurs somewhere in a value;
* `Search.keywords` — the words of the query language;
* `Query.hasKey_allOf_iff`, `Query.hasKey_anyOf_iff`, `Query.hasKey_negation_iff` — combinations;
* `hasKey_leaf_iff` — leaves.
-/

namespace Criteria

/-! ### Keys inside values -/

namespace Json

/-- An object somewhere inside a value has a member of this name. -/
def HasKey (key : String) (value : Json) : Prop :=
  ∃ members : Members, (object members).Inside value ∧ key ∈ members.map Prod.fst

variable {key : String}

theorem HasKey.of_inside {part whole : Json} (h : part.HasKey key) (hpart : part.Inside whole) :
    whole.HasKey key := by
  obtain ⟨members, hmembers, hkey⟩ := h
  exact ⟨members, hmembers.trans hpart, hkey⟩

@[simp] theorem hasKey_array {items : List Json} :
    (array items).HasKey key ↔ ∃ item ∈ items, item.HasKey key := by
  constructor
  · rintro ⟨members, hinside, hkey⟩
    cases hinside with
    | item mem inside => exact ⟨_, mem, members, inside, hkey⟩
  · rintro ⟨item, hitem, h⟩
    exact h.of_inside (.item hitem .self)

@[simp] theorem hasKey_object {members : Members} :
    (object members).HasKey key ↔
      key ∈ members.map Prod.fst ∨ ∃ member ∈ members, member.2.HasKey key := by
  constructor
  · rintro ⟨found, hinside, hkey⟩
    cases hinside with
    | self => exact .inl hkey
    | member mem inside => exact .inr ⟨_, mem, found, inside, hkey⟩
  · rintro (hkey | ⟨member, hmember, h⟩)
    · exact ⟨members, .self, hkey⟩
    · exact h.of_inside (.member hmember .self)

@[simp] theorem hasKey_single {name : String} {value : Json} :
    (single name value).HasKey key ↔ key = name ∨ value.HasKey key := by
  simp [single]

@[simp] theorem hasKey_string {text : String} : (string text).HasKey key ↔ False :=
  iff_of_false nofun not_false

@[simp] theorem hasKey_number {number : Number} : (Json.number number).HasKey key ↔ False :=
  iff_of_false nofun not_false

@[simp] theorem hasKey_bool {positive : Bool} : (bool positive).HasKey key ↔ False :=
  iff_of_false nofun not_false

end Json

namespace Search

/-- The words of the query language that documents have as keys. -/
def keywords : List String :=
  ["match_all", "match_none", "term", "terms", "range", "gt", "gte", "lt", "lte", "wildcard",
    "value", "case_insensitive", "prefix", "exists", "field", "match", "match_phrase", "query",
    "geo_distance", "distance", "lat", "lon", "geo_bounding_box", "top_left", "bottom_right",
    "distance_feature", "origin", "pivot", "bool", "filter", "should", "must_not",
    "minimum_should_match"]

variable {key : String}

/-- Members named by words of the query language have the other keys of their values. -/
theorem hasKey_words_iff (hkey : key ∉ keywords) {members : Json.Members}
    (hwords : ∀ member ∈ members, member.1 ∈ keywords) :
    (Json.object members).HasKey key ↔ ∃ member ∈ members, member.2.HasKey key := by
  rw [Json.hasKey_object, or_iff_right]
  intro hmem
  obtain ⟨member, hmember, rfl⟩ := List.mem_map.1 hmem
  exact hkey (hwords member hmember)

theorem hasKey_word_iff (hkey : key ∉ keywords) {word : String} (hword : word ∈ keywords)
    {value : Json} : (Json.single word value).HasKey key ↔ value.HasKey key := by
  rw [Json.single, hasKey_words_iff hkey (by simpa using hword)]
  simp

namespace Query

/-! ### Combinations -/

/-- The members of a clause are named by a word. -/
theorem mem_keywords_of_clause {name : String} (hname : name ∈ keywords) {documents : List Json} :
    ∀ member ∈ clause name documents, member.1 ∈ keywords := by
  unfold clause
  split <;> simp [hname]

theorem exists_clause_iff {name : String} {documents : List Json} :
    (∃ member ∈ clause name documents, member.2.HasKey key) ↔
      ∃ document ∈ documents, document.HasKey key := by
  unfold clause
  cases documents <;> simp

/-- A `bool` query adds words of the query language to the keys of its parts. -/
theorem hasKey_bool_iff (hkey : key ∉ keywords) {required optional excluded : List Query}
    {minimum : Option Nat} :
    (bool required optional excluded minimum).toJson.HasKey key ↔
      ∃ query ∈ required ++ optional ++ excluded, query.toJson.HasKey key := by
  have hlast : ∀ member ∈ (minimum.map fun n => (minimumName, Json.nat n)).toList,
      member.1 ∈ keywords ∧ ¬ member.2.HasKey key := by
    cases minimum with
    | none => simp
    | some n => simp [Json.nat, minimumName, keywords]
  have hmembers : ∀ member ∈ boolMembers (required.map toJson) (optional.map toJson)
      (excluded.map toJson) minimum, member.1 ∈ keywords := by
    simp only [boolMembers, List.forall_mem_append]
    exact ⟨⟨⟨mem_keywords_of_clause (by decide), mem_keywords_of_clause (by decide)⟩,
      mem_keywords_of_clause (by decide)⟩, fun member hmember => (hlast member hmember).1⟩
  have hnone : ¬ ∃ member ∈ (minimum.map fun n => (minimumName, Json.nat n)).toList,
      member.2.HasKey key := by
    rintro ⟨member, hmember, h⟩
    exact (hlast member hmember).2 h
  rw [toJson_bool, ← Json.single, hasKey_word_iff hkey (by decide),
    hasKey_words_iff hkey hmembers]
  simp only [boolMembers, List.mem_append, or_and_right, exists_or, exists_clause_iff,
    List.mem_map, exists_exists_and_eq_and, or_iff_left hnone]

theorem hasKey_negation_iff (hkey : key ∉ keywords) {query : Query} :
    (negation query).toJson.HasKey key ↔ query.toJson.HasKey key := by
  rw [negation, hasKey_bool_iff hkey]
  simp

/-- A query without parts is a word of the query language and nothing else. -/
theorem not_hasKey_constant (hkey : key ∉ keywords) :
    ¬ everything.toJson.HasKey key ∧ ¬ nothing.toJson.HasKey key := by
  rw [toJson, toJson, hasKey_word_iff hkey (by decide), hasKey_word_iff hkey (by decide)]
  simp

theorem hasKey_allOf_iff (hkey : key ∉ keywords) {queries : List Query} :
    (allOf queries).toJson.HasKey key ↔ ∃ query ∈ queries, query.toJson.HasKey key := by
  match queries with
  | [] => simpa [allOf] using (not_hasKey_constant hkey).1
  | [query] => simp [allOf]
  | first :: next :: rest =>
    change (bool (first :: next :: rest) [] [] none).toJson.HasKey key ↔ _
    rw [hasKey_bool_iff hkey, List.append_nil, List.append_nil]

theorem hasKey_anyOf_iff (hkey : key ∉ keywords) {queries : List Query} :
    (anyOf queries).toJson.HasKey key ↔ ∃ query ∈ queries, query.toJson.HasKey key := by
  match queries with
  | [] => simpa [anyOf] using (not_hasKey_constant hkey).2
  | [query] => simp [anyOf]
  | first :: next :: rest =>
    change (bool [] (first :: next :: rest) [] (some 1)).toJson.HasKey key ↔ _
    rw [hasKey_bool_iff hkey, List.append_nil, List.nil_append]

theorem hasKey_unlessEmpty_iff {empty query : Query} {items : List Json}
    (hempty : ¬ empty.toJson.HasKey key) :
    (unlessEmpty empty items query).toJson.HasKey key ↔ items ≠ [] ∧ query.toJson.HasKey key := by
  unfold unlessEmpty
  cases items with
  | nil => simpa using hempty
  | cons item items => simp

/-! ### Queries on a path -/

section Path

variable {path : String} (hkey : key ∉ keywords) (hpath : key ≠ path)

include hkey hpath

theorem hasKey_term_iff {value : Json} :
    (term path value).toJson.HasKey key ↔ value.HasKey key := by
  rw [toJson, hasKey_word_iff hkey (by decide), Json.hasKey_single, or_iff_right hpath]

theorem hasKey_terms_iff {values : List Json} :
    (terms path values).toJson.HasKey key ↔ ∃ value ∈ values, value.HasKey key := by
  rw [toJson, hasKey_word_iff hkey (by decide), Json.hasKey_single, or_iff_right hpath,
    Json.hasKey_array]

theorem hasKey_range_iff {limits : List (Limit × Json)} :
    (range path limits).toJson.HasKey key ↔
      ∃ value ∈ limits.map Prod.snd, value.HasKey key := by
  have hword : ∀ limit : Limit, limit.word ∈ keywords := by
    intro limit
    cases limit <;> decide
  have hlimits : ∀ member ∈ limits.map fun limit => (limit.1.word, limit.2),
      member.1 ∈ keywords := by
    intro member hmember
    obtain ⟨limit, -, rfl⟩ := List.mem_map.1 hmember
    exact hword limit.1
  rw [toJson, hasKey_word_iff hkey (by decide), Json.hasKey_single, or_iff_right hpath,
    hasKey_words_iff hkey hlimits]
  simp

theorem hasKey_fullText_iff {words : Json} :
    (fullText path words).toJson.HasKey key ↔ words.HasKey key := by
  rw [toJson, hasKey_word_iff hkey (by decide), Json.hasKey_single, or_iff_right hpath,
    hasKey_word_iff hkey (by decide)]

theorem hasKey_phrase_iff {words : Json} :
    (phrase path words).toJson.HasKey key ↔ words.HasKey key := by
  rw [toJson, hasKey_word_iff hkey (by decide), Json.hasKey_single, or_iff_right hpath,
    hasKey_word_iff hkey (by decide)]

theorem not_hasKey_wildcard {pattern : String} {anyCase : Bool} :
    ¬ (wildcard path pattern anyCase).toJson.HasKey key := by
  rw [toJson, hasKey_word_iff hkey (by decide), Json.hasKey_single, or_iff_right hpath,
    hasKey_words_iff hkey (by simp [keywords])]
  simp

theorem not_hasKey_startsWith {text : String} : ¬ (startsWith path text).toJson.HasKey key := by
  rw [toJson, hasKey_word_iff hkey (by decide), Json.hasKey_single, or_iff_right hpath,
    hasKey_word_iff hkey (by decide)]
  simp

omit hpath in
theorem not_hasKey_present : ¬ (present path).toJson.HasKey key := by
  rw [toJson, hasKey_word_iff hkey (by decide), hasKey_word_iff hkey (by decide)]
  simp

omit hpath in
theorem not_hasKey_point {point : Point} : ¬ point.toJson.HasKey key := by
  rw [Point.toJson, hasKey_words_iff hkey (by simp [keywords])]
  simp

theorem not_hasKey_withinDistance {center : Point} {distance : String} :
    ¬ (withinDistance path center distance).toJson.HasKey key := by
  have hdistance : key ≠ "distance" := by
    rintro rfl
    exact hkey (by decide)
  have hcenter : ¬ center.toJson.HasKey key := not_hasKey_point hkey
  rw [toJson, hasKey_word_iff hkey (by decide), distanceMembers_eq]
  -- the point stands behind the distance or in its place
  split <;> simp [hdistance, hpath, hcenter]

theorem not_hasKey_withinBounds {topLeft bottomRight : Point} :
    ¬ (withinBounds path topLeft bottomRight).toJson.HasKey key := by
  rw [toJson, hasKey_word_iff hkey (by decide), Json.hasKey_single, or_iff_right hpath,
    hasKey_words_iff hkey (by simp [keywords])]
  simp [not_hasKey_point hkey]

omit hpath in
theorem not_hasKey_nearness {origin : Point} {pivot : String} :
    ¬ (nearness path origin pivot).toJson.HasKey key := by
  rw [toJson, hasKey_word_iff hkey (by decide), hasKey_words_iff hkey (by simp [keywords])]
  simp [not_hasKey_point hkey]

end Path

end Query

/-! ### Leaves -/

variable {registry : Registry} {limits : Limits} {field : Field} {op : Operator} {operand : Json}
  {query : Query}

open Query in
/-- **Which other keys the document of a leaf has.** Those of its operand, except that an operator
on points takes only coordinates and texts out of it. -/
theorem hasKey_leaf_iff (hcheck : Operand.check registry limits field op operand = .ok ())
    (h : leaf field op operand = .ok query) (hkey : key ∉ keywords) (hpath : key ≠ field.reference) :
    query.toJson.HasKey key ↔ op.category ≠ .geo ∧ operand.HasKey key := by
  cases op with
  | eq =>
    obtain rfl := Except.ok.inj h
    rw [hasKey_term_iff hkey hpath]
    simp [Operator.category]
  | neq =>
    obtain rfl := Except.ok.inj h
    rw [hasKey_negation_iff hkey, hasKey_term_iff hkey hpath]
    simp [Operator.category]
  | gt | gte | lt | lte =>
    obtain rfl := Except.ok.inj h
    rw [hasKey_range_iff hkey hpath]
    simp [Operator.category]
  | between =>
    obtain ⟨low, high, rfl, -⟩ := (Operand.check_range rfl).1 hcheck
    obtain rfl := Except.ok.inj h
    rw [hasKey_range_iff hkey hpath]
    simp [Operator.category]
  | isIn | overlaps =>
    obtain ⟨items, rfl, -⟩ := (Operand.check_list rfl).1 hcheck
    obtain rfl := Except.ok.inj h
    rw [hasKey_unlessEmpty_iff (not_hasKey_constant hkey).2, hasKey_terms_iff hkey hpath]
    cases items <;> simp [Operator.category]
  | notIn =>
    obtain ⟨items, rfl, -⟩ := (Operand.check_list rfl).1 hcheck
    obtain rfl := Except.ok.inj h
    rw [hasKey_unlessEmpty_iff (not_hasKey_constant hkey).1, hasKey_negation_iff hkey,
      hasKey_terms_iff hkey hpath]
    cases items <;> simp [Operator.category]
  | like | ilike | endsWith =>
    obtain ⟨text, rfl⟩ := (Operand.check_text rfl rfl).1 hcheck
    obtain rfl := Except.ok.inj h
    simpa using not_hasKey_wildcard hkey hpath
  | startsWith =>
    obtain ⟨text, rfl⟩ := (Operand.check_text rfl rfl).1 hcheck
    obtain rfl := Except.ok.inj h
    simpa using not_hasKey_startsWith hkey hpath
  | contains =>
    unfold leaf at h
    dsimp only at h
    by_cases harray : field.kind = .array
    · obtain ⟨items, rfl, -⟩ := (Operand.check_list (by simp [Operator.shape, harray])).1 hcheck
      rw [if_pos harray] at h
      obtain rfl := Except.ok.inj h
      rw [hasKey_unlessEmpty_iff (not_hasKey_constant hkey).1, hasKey_bool_iff hkey]
      cases items <;> simp [Operator.category, hasKey_term_iff hkey hpath]
    · obtain ⟨text, rfl⟩ := (Operand.check_text (by simp [Operator.shape, harray]) rfl).1 hcheck
      rw [if_neg harray] at h
      obtain rfl := Except.ok.inj h
      simpa using not_hasKey_wildcard hkey hpath
  | isNull =>
    obtain ⟨positive, rfl⟩ := (Operand.check_flag rfl).1 hcheck
    -- the query of a missing value is the negation of the one of a present value
    cases positive with
    | true =>
      obtain rfl := Except.ok.inj h
      rw [hasKey_negation_iff hkey]
      simpa using not_hasKey_present hkey
    | false =>
      obtain rfl := Except.ok.inj h
      simpa using not_hasKey_present hkey
  | fullText =>
    obtain rfl := Except.ok.inj h
    rw [hasKey_fullText_iff hkey hpath]
    simp [Operator.category]
  | phrase =>
    obtain rfl := Except.ok.inj h
    rw [hasKey_phrase_iff hkey hpath]
    simp [Operator.category]
  | near =>
    obtain ⟨⟨_, _, hpoint, -⟩, _, hpivot, -⟩ := Operand.check_near.1 hcheck
    obtain rfl := Except.ok.inj ((leaf_near hpoint hpivot).symm.trans h)
    rw [hasKey_bool_iff hkey]
    simp [Operator.category, not_hasKey_withinDistance hkey hpath, not_hasKey_nearness hkey]
  | withinDistance =>
    obtain ⟨⟨_, _, hpoint, -⟩, _, hdistance, -⟩ := Operand.check_withinDistance.1 hcheck
    obtain rfl := Except.ok.inj ((leaf_withinDistance hpoint hdistance).symm.trans h)
    simpa [Operator.category] using not_hasKey_withinDistance hkey hpath
  | withinBounds =>
    obtain ⟨_, _, htop, ⟨_, _, htopLeft, -⟩, hbottom, _, _, hbottomRight, -⟩ :=
      Operand.check_withinBounds.1 hcheck
    obtain rfl := Except.ok.inj ((leaf_withinBounds htop htopLeft hbottom hbottomRight).symm.trans h)
    simpa [Operator.category] using not_hasKey_withinBounds hkey hpath

end Search

end Criteria
