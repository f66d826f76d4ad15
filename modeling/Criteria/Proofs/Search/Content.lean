import Criteria.Proofs.Search.Leaf
import Criteria.Proofs.Search.Wildcard
import Criteria.Registry

/-!
# What a query keeps of the operand

Nothing is bound on the search index, so the document of a leaf is all that is left of the operand.
Two operands with the same document are indistinguishable, and the question is when that happens.

The content of an operand is its value; of a point it is the two coordinates, with the distance that
belongs to it (`SameContent`). A document keeps all of it, with one exception: the clause of
`_within_distance` has the point under the field's path and the distance under `distance`, and on a
field whose path is `distance` the point takes the distance's place.

* `toJson_leaf_eq_iff` — when two operands have the same document;
* `distanceBodies` — the clauses that have a point and a distance;
* `leaf_keeps_content` — both for all checked operands: what the clauses keep, and what the document
  tells apart.
-/

namespace Criteria.Search

open Operand (IsPoint text? coordinates?)

/-! ### Content -/

/-- Two operands say the same. Coordinates are compared as doubles; other members of a point are no
part of what it says. -/
def SameContent (op : Operator) (operand other : Json) : Prop :=
  match op with
  | .near =>
    coordinates? operand = coordinates? other ∧ text? "pivot" operand = text? "pivot" other
  | .withinDistance =>
    coordinates? operand = coordinates? other ∧ text? "distance" operand = text? "distance" other
  | .withinBounds =>
    (operand.get? "top_left").bind coordinates? = (other.get? "top_left").bind coordinates? ∧
      (operand.get? "bottom_right").bind coordinates? =
        (other.get? "bottom_right").bind coordinates?
  | _ => operand = other

/-- Two operands say the same, up to a distance that the path of the field takes the place of. -/
def SameKept (path : String) (op : Operator) (operand other : Json) : Prop :=
  if op = .withinDistance ∧ path = "distance" then coordinates? operand = coordinates? other
  else SameContent op operand other

/-! ### Documents -/

namespace Query

theorem toJsons_eq_map (queries : List Query) : toJsons queries = queries.map toJson := by
  induction queries with
  | nil => rw [toJsons, List.map_nil]
  | cons query queries ih => rw [toJsons, List.map_cons, ih]

theorem toJson_term_inj {path : String} {value other : Json} :
    (term path value).toJson = (term path other).toJson ↔ value = other := by
  simp [toJson, Json.single]

theorem toJson_negation_inj {query other : Query} :
    (negation query).toJson = (negation other).toJson ↔ query.toJson = other.toJson := by
  simp [negation, toJson, toJsons, clause, Json.single]

theorem toJson_terms_inj {path : String} {values others : List Json} :
    (terms path values).toJson = (terms path others).toJson ↔ values = others := by
  simp [toJson, Json.single]

/-- The demand for elements tells them apart, for it has one part for each. -/
theorem toJson_required_inj {path : String} {values others : List Json} (hvalues : values ≠ [])
    (hothers : others ≠ []) :
    (Query.bool (values.map (.term path)) [] [] none).toJson =
      (Query.bool (others.map (.term path)) [] [] none).toJson ↔ values = others := by
  have hterm : Function.Injective (toJson ∘ term path) := fun _ _ h => toJson_term_inj.1 h
  simp [toJson, toJsons_eq_map, clause, Json.single, hvalues, hothers,
    List.map_inj_right hterm]

/-- A query on a list tells lists apart, if it does so for those that are not empty and never looks
like the query in the place of the empty one. -/
theorem toJson_unlessEmpty_inj {empty : Query} {write : List Json → Query}
    (hempty : ∀ items, items ≠ [] → (write items).toJson ≠ empty.toJson)
    (hwrite : ∀ items others, items ≠ [] → others ≠ [] →
      ((write items).toJson = (write others).toJson ↔ items = others)) {items others : List Json} :
    (unlessEmpty empty items (write items)).toJson =
      (unlessEmpty empty others (write others)).toJson ↔ items = others := by
  unfold unlessEmpty
  cases items with
  | nil =>
    cases others with
    | nil => simp
    | cons other others => simpa using (hempty (other :: others) (by simp)).symm
  | cons item items =>
    cases others with
    | nil => simpa using hempty (item :: items) (by simp)
    | cons other others => exact hwrite _ _ (by simp) (by simp)

theorem toJson_wildcard_inj {path : String} {pattern other : List Char} {anyCase : Bool} :
    (wildcard path (String.ofList pattern) anyCase).toJson =
      (wildcard path (String.ofList other) anyCase).toJson ↔ pattern = other := by
  simp [toJson, Json.single, ← String.toList_inj]

theorem Point.toJson_inj {point other : Point} : point.toJson = other.toJson ↔ point = other := by
  cases point
  cases other
  simp [Point.toJson]

/-- The point takes the place of the distance on a path of this name, and stands behind it on every
other path. -/
theorem distanceMembers_eq (path : String) (center : Point) (distance : String) :
    distanceMembers path center distance =
      if path = "distance" then [("distance", center.toJson)]
      else [("distance", .string distance), (path, center.toJson)] := by
  unfold distanceMembers Json.Members.insert
  by_cases hpath : path = "distance"
  · rw [if_pos hpath, if_pos hpath.symm]
  · rw [if_neg hpath, if_neg (Ne.symm hpath), Json.Members.insert_nil]

theorem toJson_withinDistance_inj {path : String} {center other : Point}
    {distance next : String} :
    (withinDistance path center distance).toJson = (withinDistance path other next).toJson ↔
      center = other ∧ (path = "distance" ∨ distance = next) := by
  by_cases hpath : path = "distance"
  · simp [toJson, Json.single, distanceMembers_eq, hpath, Point.toJson_inj]
  · simp [toJson, Json.single, distanceMembers_eq, hpath, Point.toJson_inj, and_comm]

/-- Nearness names its distance a second time, under a key that is never a path. -/
theorem toJson_near_inj {path : String} {origin other : Point} {pivot next : String} :
    (bool [withinDistance path origin pivot] [nearness path origin pivot] [] none).toJson =
      (bool [withinDistance path other next] [nearness path other next] [] none).toJson ↔
      origin = other ∧ pivot = next := by
  constructor
  · intro h
    -- the restriction may have lost its distance, but the clause for the score has both
    simp only [toJson, toJsons, clause, Json.single, List.isEmpty_cons, List.isEmpty_nil,
      Bool.false_eq_true, if_false, if_true, Json.object.injEq, Json.array.injEq,
      List.cons_append, List.nil_append, List.cons.injEq, Prod.mk.injEq, true_and, and_true] at h
    obtain ⟨-, horigin, hpivot⟩ := h
    exact ⟨Point.toJson_inj.1 horigin, Json.string.inj hpivot⟩
  · rintro ⟨rfl, rfl⟩
    rfl

theorem toJson_withinBounds_inj {path : String} {topLeft bottomRight other next : Point} :
    (withinBounds path topLeft bottomRight).toJson = (withinBounds path other next).toJson ↔
      topLeft = other ∧ bottomRight = next := by
  simp [toJson, Json.single, Point.toJson_inj]

end Query

/-! ### Leaves -/

variable {registry : Registry} {limits : Limits} {field : Field} {op : Operator}
  {operand other : Json}

/-- **When two operands have the same document.** -/
theorem toJson_leaf_eq_iff (hcheck : Operand.check registry limits field op operand = .ok ())
    (hother : Operand.check registry limits field op other = .ok ()) :
    ∃ query next, leaf field op operand = .ok query ∧ leaf field op other = .ok next ∧
      (query.toJson = next.toJson ↔ SameKept field.reference op operand other) := by
  cases op with
  | eq | gt | gte | lt | lte | fullText | phrase =>
    refine ⟨_, _, rfl, rfl, ?_⟩
    simp [SameKept, SameContent, Query.toJson, Json.single]
  | neq =>
    refine ⟨_, _, rfl, rfl, ?_⟩
    rw [Query.toJson_negation_inj, Query.toJson_term_inj]
    simp [SameKept, SameContent]
  | isIn | overlaps =>
    obtain ⟨items, rfl, -⟩ := (Operand.check_list rfl).1 hcheck
    obtain ⟨others, rfl, -⟩ := (Operand.check_list rfl).1 hother
    refine ⟨_, _, rfl, rfl, ?_⟩
    rw [Query.toJson_unlessEmpty_inj (by simp [Query.toJson, Json.single])
      fun _ _ _ _ => Query.toJson_terms_inj]
    simp [SameKept, SameContent]
  | notIn =>
    obtain ⟨items, rfl, -⟩ := (Operand.check_list rfl).1 hcheck
    obtain ⟨others, rfl, -⟩ := (Operand.check_list rfl).1 hother
    refine ⟨_, _, rfl, rfl, ?_⟩
    rw [Query.toJson_unlessEmpty_inj (by simp [Query.negation, Query.toJson, Json.single])
      fun _ _ _ _ => Query.toJson_negation_inj.trans Query.toJson_terms_inj]
    simp [SameKept, SameContent]
  | like | ilike =>
    obtain ⟨pattern, rfl⟩ := (Operand.check_text rfl rfl).1 hcheck
    obtain ⟨pattern', rfl⟩ := (Operand.check_text rfl rfl).1 hother
    refine ⟨_, _, rfl, rfl, ?_⟩
    rw [Query.toJson_wildcard_inj, ofLike_inj, String.toList_inj]
    simp [SameKept, SameContent]
  | contains =>
    unfold leaf
    by_cases harray : field.kind = .array
    · obtain ⟨items, rfl, -⟩ := (Operand.check_list (by simp [Operator.shape, harray])).1 hcheck
      obtain ⟨others, rfl, -⟩ := (Operand.check_list (by simp [Operator.shape, harray])).1 hother
      refine ⟨_, _, if_pos harray, if_pos harray, ?_⟩
      rw [Query.toJson_unlessEmpty_inj (by simp [Query.toJson, Json.single])
        fun _ _ => Query.toJson_required_inj]
      simp [SameKept, SameContent]
    · obtain ⟨text, rfl⟩ := (Operand.check_text (by simp [Operator.shape, harray]) rfl).1 hcheck
      obtain ⟨text', rfl⟩ := (Operand.check_text (by simp [Operator.shape, harray]) rfl).1 hother
      refine ⟨_, _, if_neg harray, if_neg harray, ?_⟩
      -- the asterisks around the text are the same for both
      rw [Query.toJson_wildcard_inj, List.cons_append, List.cons_append, List.cons_inj_right,
        List.append_left_inj, escapeWildcards_inj, String.toList_inj]
      simp [SameKept, SameContent]
  | startsWith =>
    obtain ⟨text, rfl⟩ := (Operand.check_text rfl rfl).1 hcheck
    obtain ⟨text', rfl⟩ := (Operand.check_text rfl rfl).1 hother
    refine ⟨_, _, rfl, rfl, ?_⟩
    simp [SameKept, SameContent, Query.toJson, Json.single]
  | endsWith =>
    obtain ⟨text, rfl⟩ := (Operand.check_text rfl rfl).1 hcheck
    obtain ⟨text', rfl⟩ := (Operand.check_text rfl rfl).1 hother
    refine ⟨_, _, rfl, rfl, ?_⟩
    rw [Query.toJson_wildcard_inj, List.cons_inj_right, escapeWildcards_inj, String.toList_inj]
    simp [SameKept, SameContent]
  | between =>
    obtain ⟨low, high, rfl, -⟩ := (Operand.check_range rfl).1 hcheck
    obtain ⟨low', high', rfl, -⟩ := (Operand.check_range rfl).1 hother
    refine ⟨_, _, rfl, rfl, ?_⟩
    simp [SameKept, SameContent, Query.toJson, Json.single]
  | isNull =>
    obtain ⟨positive, rfl⟩ := (Operand.check_flag rfl).1 hcheck
    obtain ⟨positive', rfl⟩ := (Operand.check_flag rfl).1 hother
    -- the query of a missing value is the negation of the one of a present value
    cases positive <;> cases positive' <;> refine ⟨_, _, rfl, rfl, ?_⟩ <;>
      simp [SameKept, SameContent, Query.negation, Query.toJson, Query.clause, Json.single]
  | near =>
    obtain ⟨⟨_, _, hpoint, -⟩, _, hpivot, -⟩ := Operand.check_near.1 hcheck
    obtain ⟨⟨_, _, hpoint', -⟩, _, hpivot', -⟩ := Operand.check_near.1 hother
    refine ⟨_, _, leaf_near hpoint hpivot, leaf_near hpoint' hpivot', ?_⟩
    rw [Query.toJson_near_inj]
    simp [SameKept, SameContent, hpoint, hpoint', hpivot, hpivot']
  | withinDistance =>
    obtain ⟨⟨_, _, hpoint, -⟩, _, hdistance, -⟩ := Operand.check_withinDistance.1 hcheck
    obtain ⟨⟨_, _, hpoint', -⟩, _, hdistance', -⟩ := Operand.check_withinDistance.1 hother
    refine ⟨_, _, leaf_withinDistance hpoint hdistance, leaf_withinDistance hpoint' hdistance', ?_⟩
    rw [Query.toJson_withinDistance_inj]
    by_cases hpath : field.reference = "distance" <;>
      simp [SameKept, SameContent, hpath, hpoint, hpoint', hdistance, hdistance']
  | withinBounds =>
    obtain ⟨_, _, htop, ⟨_, _, htopLeft, -⟩, hbottom, _, _, hbottomRight, -⟩ :=
      Operand.check_withinBounds.1 hcheck
    obtain ⟨_, _, htop', ⟨_, _, htopLeft', -⟩, hbottom', _, _, hbottomRight', -⟩ :=
      Operand.check_withinBounds.1 hother
    refine ⟨_, _, leaf_withinBounds htop htopLeft hbottom hbottomRight,
      leaf_withinBounds htop' htopLeft' hbottom' hbottomRight', ?_⟩
    rw [Query.toJson_withinBounds_inj]
    simp [SameKept, SameContent, htop, htop', hbottom, hbottom', htopLeft, htopLeft',
      hbottomRight, hbottomRight']

/-! ### Clauses with a point and a distance -/

namespace Query

mutual

/-- What stands in the clauses of a query that restrict by a distance. -/
def distanceBodies : Query → List Json
  | .withinDistance path center distance => [.object (distanceMembers path center distance)]
  | .bool required optional excluded _ =>
    distanceBodiesAll required ++ distanceBodiesAll optional ++ distanceBodiesAll excluded
  | _ => []

/-- What stands in such clauses of queries. -/
def distanceBodiesAll : List Query → List Json
  | [] => []
  | query :: rest => distanceBodies query ++ distanceBodiesAll rest

end

theorem distanceBodiesAll_terms (path : String) (values : List Json) :
    distanceBodiesAll (values.map (.term path)) = [] := by
  induction values with
  | nil => rw [List.map_nil, distanceBodiesAll]
  | cons value values ih =>
    rw [List.map_cons, distanceBodiesAll, ih, List.append_nil]
    simp [distanceBodies]

theorem distanceBodies_unlessEmpty {empty query : Query} {items : List Json}
    (hempty : empty.distanceBodies = []) (hquery : query.distanceBodies = []) :
    (unlessEmpty empty items query).distanceBodies = [] := by
  unfold unlessEmpty
  split
  · exact hempty
  · exact hquery

end Query

open Query (distanceBodies distanceBodiesAll)

/-- No other operator restricts by a distance. -/
theorem distanceBodies_of_leaf {query : Query} (hnear : op ≠ .near)
    (hwithin : op ≠ .withinDistance) (h : leaf field op operand = .ok query) :
    query.distanceBodies = [] := by
  cases op with
  | eq | gt | gte | lt | lte | fullText | phrase =>
    obtain rfl := Except.ok.inj h
    simp [distanceBodies]
  | neq =>
    obtain rfl := Except.ok.inj h
    simp [Query.negation, distanceBodies, distanceBodiesAll]
  | isIn | overlaps | notIn =>
    obtain ⟨items, -, h⟩ := bind_eq_ok.1 h
    obtain rfl := Except.ok.inj h
    apply Query.distanceBodies_unlessEmpty <;>
      simp [Query.negation, distanceBodies, distanceBodiesAll]
  | like | ilike | startsWith | endsWith =>
    obtain ⟨text, -, h⟩ := bind_eq_ok.1 h
    obtain rfl := Except.ok.inj h
    simp [distanceBodies]
  | contains =>
    unfold leaf at h
    dsimp only at h
    split at h
    · obtain ⟨items, -, h⟩ := bind_eq_ok.1 h
      obtain rfl := Except.ok.inj h
      apply Query.distanceBodies_unlessEmpty <;>
        simp [distanceBodies, distanceBodiesAll, Query.distanceBodiesAll_terms]
    · obtain ⟨text, -, h⟩ := bind_eq_ok.1 h
      obtain rfl := Except.ok.inj h
      simp [distanceBodies]
  | between =>
    obtain ⟨items, -, h⟩ := bind_eq_ok.1 h
    split at h
    · obtain rfl := Except.ok.inj h
      simp [distanceBodies]
    · cases h
  | isNull =>
    unfold leaf at h
    dsimp only at h
    split at h
    · obtain rfl := Except.ok.inj h
      simp [Query.negation, distanceBodies, distanceBodiesAll]
    · obtain rfl := Except.ok.inj h
      simp [distanceBodies]
    · cases h
  | near => exact absurd rfl hnear
  | withinDistance => exact absurd rfl hwithin
  | withinBounds =>
    obtain ⟨topLeft, -, h⟩ := bind_eq_ok.1 h
    obtain ⟨bottomRight, -, h⟩ := bind_eq_ok.1 h
    obtain rfl := Except.ok.inj h
    simp [distanceBodies]

/-- The key under which the operand of an operator has a distance. -/
def distanceKey? : Operator → Option String
  | .near => some "pivot"
  | .withinDistance => some "distance"
  | _ => none

/-- A clause has the point of the operand under the path of the field, and its distance unless the
path is in the way. -/
def KeepsDistance (path : String) (op : Operator) (operand body : Json) : Prop :=
  ∃ latitude longitude key distance, distanceKey? op = some key ∧
    coordinates? operand = some (latitude, longitude) ∧ text? key operand = some distance ∧
    body.get? path = some (Point.toJson ⟨latitude, longitude⟩) ∧
    (body.get? "distance" = some (.string distance) ↔ path ≠ "distance")

theorem get?_distanceMembers (path : String) (center : Point) (distance : String) :
    Json.get? path (.object (Query.distanceMembers path center distance)) = some center.toJson ∧
      (Json.get? "distance" (.object (Query.distanceMembers path center distance)) =
        some (.string distance) ↔ path ≠ "distance") := by
  rw [Query.distanceMembers_eq]
  by_cases hpath : path = "distance"
  · rw [if_pos hpath]
    simp [Json.get?, hpath, Point.toJson]
  · rw [if_neg hpath]
    have hbeq : (path == "distance") = false := beq_false_of_ne hpath
    simp [Json.get?, List.lookup_cons, hpath, hbeq]

/-- The clauses of a leaf that restrict by a distance. -/
theorem keepsDistance_of_leaf {query : Query}
    (hcheck : Operand.check registry limits field op operand = .ok ())
    (h : leaf field op operand = .ok query) :
    (query.distanceBodies ≠ [] ↔ op = .near ∨ op = .withinDistance) ∧
      ∀ body ∈ query.distanceBodies, KeepsDistance field.reference op operand body := by
  by_cases hnear : op = .near
  · subst hnear
    obtain ⟨⟨latitude, longitude, hpoint, -⟩, pivot, hpivot, -⟩ := Operand.check_near.1 hcheck
    obtain rfl := Except.ok.inj ((leaf_near hpoint hpivot).symm.trans h)
    have hbodies := get?_distanceMembers field.reference ⟨latitude, longitude⟩ pivot
    simp only [distanceBodies, distanceBodiesAll, List.append_nil]
    refine ⟨by simp, fun body hbody => ?_⟩
    obtain rfl := List.mem_singleton.1 hbody
    exact ⟨latitude, longitude, "pivot", pivot, rfl, hpoint, hpivot, hbodies⟩
  · by_cases hwithin : op = .withinDistance
    · subst hwithin
      obtain ⟨⟨latitude, longitude, hpoint, -⟩, distance, hdistance, -⟩ :=
        Operand.check_withinDistance.1 hcheck
      obtain rfl := Except.ok.inj ((leaf_withinDistance hpoint hdistance).symm.trans h)
      have hbodies := get?_distanceMembers field.reference ⟨latitude, longitude⟩ distance
      simp only [distanceBodies]
      refine ⟨by simp, fun body hbody => ?_⟩
      obtain rfl := List.mem_singleton.1 hbody
      exact ⟨latitude, longitude, "distance", distance, rfl, hpoint, hdistance, hbodies⟩
    · rw [distanceBodies_of_leaf hnear hwithin h]
      simp [hnear, hwithin]

/-- **The document of a leaf keeps the content of its operand**, except that a field whose path is
`distance` loses the distance of `_within_distance`. Two checked operands have the same document
exactly if they say the same up to this, and the clauses with a distance have the point of the
operand, and also the distance on every other path. -/
theorem leaf_keeps_content (hcheck : Operand.check registry limits field op operand = .ok ())
    (hother : Operand.check registry limits field op other = .ok ()) :
    ∃ query next, leaf field op operand = .ok query ∧ leaf field op other = .ok next ∧
      (query.toJson = next.toJson ↔ SameKept field.reference op operand other) ∧
      (query.distanceBodies ≠ [] ↔ op = .near ∨ op = .withinDistance) ∧
      ∀ body ∈ query.distanceBodies, KeepsDistance field.reference op operand body := by
  obtain ⟨query, next, hquery, hnext, hiff⟩ := toJson_leaf_eq_iff hcheck hother
  obtain ⟨hbodies, hkeeps⟩ := keepsDistance_of_leaf hcheck hquery
  exact ⟨query, next, hquery, hnext, hiff, hbodies, hkeeps⟩

/-- Two points with a pivot that differ in the members which are no part of what they say, one
coordinate being written as an integer and once as a double. -/
theorem leaf_keeps_content_near :
    let field : Field := ⟨"place", "shop.place", .geoPoint, true, false⟩
    let operand : Json := .object
      [("lat", .int 1), ("lon", .int (-2)), ("pivot", .string "1.5km"), ("note", .null)]
    let other : Json := .object
      [("pivot", .string "1.5km"), ("lon", .int (-2)),
       ("lat", .number (.double (Binary64.ofInt 1)))]
    Operand.check .empty {} field .near operand = .ok () ∧
      Operand.check .empty {} field .near other = .ok () ∧
      ∃ query next, leaf field .near operand = .ok query ∧ leaf field .near other = .ok next ∧
        query.toJson = next.toJson ∧ query.distanceBodies ≠ [] ∧
        ∀ body ∈ query.distanceBodies, KeepsDistance "shop.place" .near operand body := by
  intro field operand other
  have hcheck : Operand.check .empty {} field .near operand = .ok () := rfl
  have hother : Operand.check .empty {} field .near other = .ok () := rfl
  obtain ⟨query, next, hquery, hnext, hiff, hbodies, hkeeps⟩ := leaf_keeps_content hcheck hother
  refine ⟨hcheck, hother, query, next, hquery, hnext, hiff.2 ?_, hbodies.2 (.inl rfl), hkeeps⟩
  exact ⟨rfl, rfl⟩

/-- **On a field whose path is `distance`, two distances have the same document.** The schema
accepts the field and the operator is legal on it. -/
theorem leaf_loses_distance :
    let field : Field := .declare "distance" .geoPoint
    let within (distance : String) : Json :=
      .object [("lat", .int 1), ("lon", .int 2), ("distance", .string distance)]
    (∃ schema, Schema.build [⟨"Place", [field]⟩] = .ok schema) ∧
      Registry.empty.isLegal field.kind .search .withinDistance = true ∧
      Operand.check .empty {} field .withinDistance (within "3km") = .ok () ∧
      Operand.check .empty {} field .withinDistance (within "5km") = .ok () ∧
      ∃ query next, leaf field .withinDistance (within "3km") = .ok query ∧
        leaf field .withinDistance (within "5km") = .ok next ∧ query.toJson = next.toJson ∧
        ¬ SameContent .withinDistance (within "3km") (within "5km") ∧
        ∃ body ∈ query.distanceBodies, body.get? "distance" ≠ some (.string "3km") := by
  have hbuild : Schema.build [⟨"Place", [.declare "distance" .geoPoint]⟩] =
      .ok ⟨.ofList [("Place", ⟨"Place", [.declare "distance" .geoPoint]⟩)]⟩ := rfl
  intro field within
  let center : Point := ⟨Binary64.ofInt 1, Binary64.ofInt 2⟩
  have hquery : ∀ distance, leaf field .withinDistance (within distance) =
      .ok (.withinDistance "distance" center distance) := fun _ => rfl
  refine ⟨⟨_, hbuild⟩, rfl, rfl, rfl, _, _, hquery "3km", hquery "5km", ?_, ?_, ?_⟩
  · -- the point has taken the place of either distance
    exact Query.toJson_withinDistance_inj.2 ⟨rfl, .inl rfl⟩
  · rintro ⟨-, htext⟩
    have hsame : "3km" = "5km" := Option.some.inj htext
    exact absurd hsame (by decide)
  · have hbody := (get?_distanceMembers "distance" center "3km").2
    refine ⟨.object (Query.distanceMembers "distance" center "3km"), ?_, ?_⟩
    · simp [distanceBodies]
    · exact fun h => absurd rfl (hbody.1 h)

end Criteria.Search
