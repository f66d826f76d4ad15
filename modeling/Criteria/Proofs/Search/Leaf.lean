import Criteria.Proofs.Filter.Operand
import Criteria.Search.Leaf

/-!
# Leaves of checked operands on the search index

Every operator has a query on the search index, so a leaf fails for its operand only. The check of
operands leaves no such operand through.

* `leaf_near`, `leaf_withinDistance`, `leaf_withinBounds` — the queries of the operators on points;
* `exists_leaf` — every checked operand has a query.
-/

namespace Criteria.Search

open Operand (IsPoint text? coordinates?)

variable {field : Field} {op : Operator} {operand value : Json} {latitude longitude : Binary64}

/-! ### Operators on points -/

theorem expectPoint_of_coordinates? (h : coordinates? value = some (latitude, longitude)) :
    expectPoint field op (some value) = .ok ⟨latitude, longitude⟩ := by
  obtain ⟨hlatitude, hlongitude⟩ := Operand.coordinates?_eq_some.1 h
  rw [expectPoint, Option.bind_some, Option.bind_some, hlatitude, hlongitude]

theorem expectDistance_of_text? {key text : String} (h : text? key operand = some text) :
    expectDistance field op operand key = .ok text := by
  unfold text? at h
  rw [expectDistance, h]

theorem leaf_near {pivot : String} (hpoint : coordinates? operand = some (latitude, longitude))
    (hpivot : text? "pivot" operand = some pivot) :
    leaf field .near operand =
      .ok (.bool [.withinDistance field.reference ⟨latitude, longitude⟩ pivot]
        [.nearness field.reference ⟨latitude, longitude⟩ pivot] [] none) := by
  rw [leaf, expectPoint_of_coordinates? hpoint, expectDistance_of_text? hpivot]
  rfl

theorem leaf_withinDistance {distance : String}
    (hpoint : coordinates? operand = some (latitude, longitude))
    (hdistance : text? "distance" operand = some distance) :
    leaf field .withinDistance operand =
      .ok (.withinDistance field.reference ⟨latitude, longitude⟩ distance) := by
  rw [leaf, expectPoint_of_coordinates? hpoint, expectDistance_of_text? hdistance]
  rfl

theorem leaf_withinBounds {topLeft bottomRight : Json} {north west south east : Binary64}
    (htop : operand.get? "top_left" = some topLeft)
    (htopLeft : coordinates? topLeft = some (north, west))
    (hbottom : operand.get? "bottom_right" = some bottomRight)
    (hbottomRight : coordinates? bottomRight = some (south, east)) :
    leaf field .withinBounds operand =
      .ok (.withinBounds field.reference ⟨north, west⟩ ⟨south, east⟩) := by
  rw [leaf, htop, hbottom, expectPoint_of_coordinates? htopLeft,
    expectPoint_of_coordinates? hbottomRight]
  rfl

/-! ### Checked operands -/

/-- **A checked operand has a query.** -/
theorem exists_leaf {registry : Registry} {limits : Limits}
    (hcheck : Operand.check registry limits field op operand = .ok ()) :
    ∃ query, leaf field op operand = .ok query := by
  cases op with
  | eq | neq | gt | gte | lt | lte | fullText | phrase => exact ⟨_, rfl⟩
  | isIn | notIn | overlaps =>
    obtain ⟨items, rfl, -⟩ := (Operand.check_list rfl).1 hcheck
    exact ⟨_, rfl⟩
  | like | ilike | startsWith | endsWith =>
    obtain ⟨text, rfl⟩ := (Operand.check_text rfl rfl).1 hcheck
    exact ⟨_, rfl⟩
  | contains =>
    unfold leaf
    by_cases harray : field.kind = .array
    · -- on an array, the elements that it must have
      obtain ⟨items, rfl, -⟩ := (Operand.check_list (by simp [Operator.shape, harray])).1 hcheck
      exact ⟨_, if_pos harray⟩
    · obtain ⟨text, rfl⟩ := (Operand.check_text (by simp [Operator.shape, harray]) rfl).1 hcheck
      exact ⟨_, if_neg harray⟩
  | between =>
    obtain ⟨low, high, rfl, -⟩ := (Operand.check_range rfl).1 hcheck
    exact ⟨_, rfl⟩
  | isNull =>
    obtain ⟨positive, rfl⟩ := (Operand.check_flag rfl).1 hcheck
    cases positive <;> exact ⟨_, rfl⟩
  | near =>
    obtain ⟨⟨_, _, hpoint, -⟩, _, hpivot, -⟩ := Operand.check_near.1 hcheck
    exact ⟨_, leaf_near hpoint hpivot⟩
  | withinDistance =>
    obtain ⟨⟨_, _, hpoint, -⟩, _, hdistance, -⟩ := Operand.check_withinDistance.1 hcheck
    exact ⟨_, leaf_withinDistance hpoint hdistance⟩
  | withinBounds =>
    obtain ⟨_, _, htop, ⟨_, _, htopLeft, -⟩, hbottom, _, _, hbottomRight, -⟩ :=
      Operand.check_withinBounds.1 hcheck
    exact ⟨_, leaf_withinBounds htop htopLeft hbottom hbottomRight⟩

end Criteria.Search
