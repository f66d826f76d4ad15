import Criteria.Json.Basic
import Criteria.Request.Path

/-!
# Where a path leads

A path leads from a document to a value if every step of it goes from an object to one of its
members, or from a list to one of its items. Readers make paths longer at the end, and so does
`Leads`. An object may mention a key more than once, and then the path has several values to lead
to.

* `Leads` — where the steps of a path can go;
* `LeadsToItems` — the items of a list under their indices, for readers that go through it.
-/

namespace Criteria.Path

variable {document value : Json} {path : Path}

/-- A path leads from a document to a value. -/
inductive Leads (document : Json) : Path → Json → Prop
  /-- The document itself. -/
  | root : Leads document [] document
  /-- A member of an object. -/
  | key {path : Path} {members : Json.Members} {name : String} {value : Json}
      (h : Leads document path (.object members)) (hmember : (name, value) ∈ members) :
    Leads document (path ++ [.key name]) value
  /-- An item of a list. -/
  | index {path : Path} {items : List Json} {position : Nat} {value : Json}
      (h : Leads document path (.array items)) (hitem : items[position]? = some value) :
    Leads document (path ++ [.index position]) value

/-! ### The items of a list -/

/-- A path leads to a list that has these items from an index on. -/
def LeadsToItems (document : Json) (path : Path) (index : Nat) (items : List Json) : Prop :=
  ∀ i item, items[i]? = some item → Leads document (path ++ [.index (index + i)]) item

theorem Leads.toItems {items : List Json} (h : Leads document path (.array items)) :
    LeadsToItems document path 0 items := by
  intro i item hitem
  rw [Nat.zero_add]
  exact h.index hitem

theorem leadsToItems_cons {item : Json} {items : List Json} {index : Nat}
    (h : LeadsToItems document path index (item :: items)) :
    Leads document (path ++ [.index index]) item ∧
      LeadsToItems document path (index + 1) items := by
  constructor
  · exact h 0 item rfl
  · intro i other hother
    have hshift : index + 1 + i = index + (i + 1) := by omega
    rw [hshift]
    exact h (i + 1) other hother

end Criteria.Path
