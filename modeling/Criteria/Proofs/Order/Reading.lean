import Criteria.Order.Reading
import Criteria.Proofs.Outcome

/-!
# What a reader makes of an ordering

An ordering that is read has one clause for every field that its document names, in the order in
which the document names them. What a field is given may be spelled in three ways, and `Asks` says
what each of them asks for, without the reader: a direction by its word, a direction and a position
of nulls in one word, or an object with a member for each.

* `written` — the fields of a document with what is said of them;
* `Asks`, `readSpec_eq_ok_iff` — what is said of a field, and that the reader finds exactly that;
* `isRead_of_read` — the clauses that are read, one by one.
-/

namespace Criteria

/-! ### Words -/

theorem Direction.ofWord?_eq_some_iff {word : String} {direction : Direction} :
    Direction.ofWord? word = some direction ↔ word = direction.word := by
  constructor
  · intro h
    unfold Direction.ofWord? at h
    split at h <;> cases h <;> rfl
  · rintro rfl
    cases direction <;> rfl

theorem Nulls.ofWord?_eq_some_iff {word : String} {nulls : Nulls} :
    Nulls.ofWord? word = some nulls ↔ word = nulls.word := by
  constructor
  · intro h
    unfold Nulls.ofWord? at h
    split at h <;> cases h <;> rfl
  · rintro rfl
    cases nulls <;> rfl

namespace Order

variable {scope : Scope} {document value : Json} {direction : Direction} {nulls : Nulls}

/-- A direction and a position of nulls in one word. -/
def shorthand (direction : Direction) : Nulls → String
  | .unspecified => direction.word
  | nulls => direction.word ++ "_nulls_" ++ nulls.word

theorem shorthand_of_ne {direction : Direction} {nulls : Nulls} (h : nulls ≠ .unspecified) :
    shorthand direction nulls = direction.word ++ "_nulls_" ++ nulls.word := by
  cases nulls with
  | first => rfl
  | last => rfl
  | unspecified => exact absurd rfl h

theorem readShorthand_eq_ok_iff {text : String} :
    readShorthand text = .ok (direction, nulls) ↔
      Text.lower text = shorthand direction nulls := by
  unfold readShorthand
  constructor
  · intro h
    -- the last branch is that of a word which is none of the six
    split at h
    case h_7 => cases h
    all_goals
      next hword =>
        rw [hword]
        cases h
        rfl
  · intro h
    rw [h]
    cases direction <;> cases nulls <;> rfl

/-! ### What is said of a field -/

/-- What an optional value names: an item by its word in any letter case, or the default if there is
no value. -/
inductive Names {α : Type} (word : α → String) (default : α) : Option Json → α → Prop
  | absent : Names word default none default
  | null : Names word default (some .null) default
  | word {text : String} {item : α} (h : Text.lower text = word item) :
    Names word default (some (.string text)) item

/-- What is said of a field asks for a direction and a position of nulls. -/
inductive Asks : Json → Direction → Nulls → Prop
  /-- A word in any letter case. -/
  | word {text : String} {direction : Direction} {nulls : Nulls}
      (h : Text.lower text = shorthand direction nulls) : Asks (.string text) direction nulls
  /-- An object. Without a direction it asks for the ascending one. -/
  | object {members : Json.Members} {direction : Direction} {nulls : Nulls}
      (hdirection : Names Direction.word .ascending (members.lookup "direction") direction)
      (hnulls : Names Nulls.word .unspecified (members.lookup "nulls") nulls) :
      Asks (.object members) direction nulls

theorem readDirection_eq_ok_iff {value : Option Json} :
    readDirection value = .ok direction ↔
      Names Direction.word .ascending value direction := by
  constructor
  · intro h
    unfold readDirection at h
    split at h
    · cases h
      exact .absent
    · cases h
      exact .null
    · next text =>
      -- a word that also says where nulls go is refused inside of an object
      split at h
      · next found hfound =>
        obtain rfl := Except.ok.inj h
        exact .word (readShorthand_eq_ok_iff.1 hfound)
      · cases h
    · cases h
  · intro h
    cases h with
    | absent => rfl
    | null => rfl
    | word hword =>
      -- the word of a direction alone leaves the nulls to the backend
      have hread := (@readShorthand_eq_ok_iff direction .unspecified _).2 hword
      rw [readDirection, hread]

theorem readNulls_eq_ok_iff {value : Option Json} :
    readNulls value = .ok nulls ↔ Names Nulls.word .unspecified value nulls := by
  constructor
  · intro h
    unfold readNulls at h
    split at h
    · cases h
      exact .absent
    · cases h
      exact .null
    · next text =>
      split at h
      · next found hfound =>
        obtain rfl := Except.ok.inj h
        exact .word (Nulls.ofWord?_eq_some_iff.1 hfound)
      · cases h
    · cases h
  · intro h
    cases h with
    | absent => rfl
    | null => rfl
    | word hword => rw [readNulls, Nulls.ofWord?_eq_some_iff.2 hword]

/-- **The reader finds what is asked for, and refuses what asks for nothing.** -/
theorem readSpec_eq_ok_iff :
    readSpec value = .ok (direction, nulls) ↔ Asks value direction nulls := by
  constructor
  · intro h
    unfold readSpec at h
    split at h
    · exact .word (readShorthand_eq_ok_iff.1 h)
    · obtain ⟨found, hdirection, h⟩ := bind_eq_ok.1 h
      obtain ⟨position, hnulls, h⟩ := bind_eq_ok.1 h
      cases h
      exact .object (readDirection_eq_ok_iff.1 hdirection) (readNulls_eq_ok_iff.1 hnulls)
    · cases h
  · intro h
    cases h with
    | word hword => exact readShorthand_eq_ok_iff.2 hword
    | object hdirection hnulls =>
      exact bind_eq_ok.2 ⟨direction, readDirection_eq_ok_iff.2 hdirection,
        bind_eq_ok.2 ⟨nulls, readNulls_eq_ok_iff.2 hnulls, rfl⟩⟩

/-! ### Entries -/

/-- The fields that a document names, with what it says of them, in the order in which they are
written. -/
def written : Json → Json.Members
  | .array items => items.flatMap fun item => item.asObject?.getD []
  | .object members => members
  | _ => []

/-- The field of an entry with what is said of it. -/
def Entry.member (entry : Entry) : String × Json := (entry.field, entry.value)

theorem members_of_listEntries {items : List Json} :
    ∀ {index : Nat} {found : List Entry}, listEntries index items = .ok found →
      found.map Entry.member = written (.array items) := by
  induction items with
  | nil =>
    intro index found h
    obtain rfl := Except.ok.inj h
    rfl
  | cons item items ih =>
    intro index found h
    unfold listEntries at h
    split at h
    · next heq => cases heq
    · next field value rest heq =>
      obtain ⟨rfl, rfl⟩ := List.cons.inj heq
      obtain ⟨others, hothers, h⟩ := bind_eq_ok.1 h
      obtain rfl := Except.ok.inj h
      have hrest : others.map Entry.member = written (.array items) := ih hothers
      rw [List.map_cons, hrest]
      rfl
    · cases h
    · cases h

/-- No entry is lost, and none is made up. -/
theorem members_of_entries {found : List Entry} (h : entries document = .ok found) :
    found.map Entry.member = written document := by
  unfold entries at h
  split at h
  · obtain rfl := Except.ok.inj h
    rfl
  · exact members_of_listEntries h
  · next members =>
    obtain rfl := Except.ok.inj h
    rw [List.map_map]
    exact List.map_id members
  · cases h

/-! ### Clauses -/

/-- A field is declared, and clients may order by it. -/
def IsSortable (scope : Scope) (name : String) : Prop :=
  ∃ declared, scope.field? name = some declared ∧ declared.sortable = true

/-- A clause is what is read for a field with what is said of it. -/
structure IsRead (scope : Scope) (member : String × Json) (clause : OrderClause) : Prop where
  /-- Clients may order by the field. -/
  sortable : IsSortable scope member.1
  /-- The clause is about the field. -/
  field : clause.field = member.1
  /-- It says what is asked for. -/
  asks : Asks member.2 clause.direction clause.nulls

theorem isRead_of_readEntry {entry : Entry} {clause : OrderClause}
    (h : readEntry scope entry = .ok clause) : IsRead scope entry.member clause := by
  unfold readEntry at h
  split at h
  · cases h
  · next declared hdeclared =>
    split at h
    · cases h
    · next hsortable =>
      split at h
      · next direction nulls hspec =>
        obtain rfl := Except.ok.inj h
        exact ⟨⟨declared, hdeclared, by simpa using hsortable⟩, rfl, readSpec_eq_ok_iff.1 hspec⟩
      · cases h

/-- What a document with these entries is read as: they are counted and then read in turn. -/
theorem read_of_entries {found : List Entry} (h : entries document = .ok found) :
    read scope document =
      if scope.limits.maxOrderClauses < found.length then
        .error (.tooManyClauses found.length scope.limits.maxOrderClauses)
      else found.mapM (readEntry scope) := by
  unfold read
  rw [h]
  rfl

/-- A document that is read has had its entries counted, and then each of them read. -/
theorem read_eq_ok {clauses : List OrderClause} :
    read scope document = .ok clauses ↔
      ∃ found, entries document = .ok found ∧ found.length ≤ scope.limits.maxOrderClauses ∧
        found.mapM (readEntry scope) = .ok clauses := by
  constructor
  · intro h
    obtain ⟨found, hfound, -⟩ := bind_eq_ok.1 h
    rw [read_of_entries hfound, refuse_eq_ok, Nat.not_lt] at h
    exact ⟨found, hfound, h⟩
  · rintro ⟨found, hfound, hlimit, hclauses⟩
    rw [read_of_entries hfound, refuse_eq_ok, Nat.not_lt]
    exact ⟨hlimit, hclauses⟩

/-- **The clauses that are read are those of the document, one by one and in its order.** -/
theorem isRead_of_read {clauses : List OrderClause} (h : read scope document = .ok clauses) :
    List.Forall₂ (IsRead scope) (written document) clauses := by
  obtain ⟨found, hfound, -, hclauses⟩ := read_eq_ok.1 h
  rw [← members_of_entries hfound, List.forall₂_map_left_iff]
  exact (mapM_eq_ok_iff.1 hclauses).imp fun entry clause => isRead_of_readEntry

end Order

end Criteria
