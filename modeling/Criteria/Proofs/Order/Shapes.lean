import Criteria.Proofs.Order.Reading

/-!
# The shapes of an ordering agree

A client may write an ordering as one object, or as a list with an object for each field, and it may
spell the direction of a field as one word or as an object. None of these choices changes what is
read.

The two outer shapes differ in where an entry stands and in nothing else. An entry that is refused
for what is said of its field is reported with its place, so the two failures differ by the step to
that entry (`RequestError.under`); every other failure is the same. A word that is spelled out as an
object asks for the same (`SpelledOut.readSpec_eq`), and the reader looks at a document only through
what its entries ask for (`read_eq_of_digests`).

* `exists_read_singles` — the object and the list of its members;
* `read_eq_of_respelled` — entries that are spelled out;
* `read_shapes_agree` — both.
-/

namespace Criteria

/-- The refusal of a document that stands under some steps of a larger one: only a place that is
reported changes. -/
def RequestError.under (steps : Path) : RequestError → RequestError
  | .malformed path fault => .malformed (steps ++ path) fault
  | error => error

namespace Order

variable {scope : Scope} {document other : Json} {items others : List Json}
  {members rest : Json.Members}

/-! ### One object or a list of objects -/

/-- The members of an object as a list of objects with one member each. -/
def singles (members : Json.Members) : List Json :=
  members.map fun member => .single member.1 member.2

/-- The entry that a member is at a place. -/
def Entry.ofMember (path : Path) (member : String × Json) : Entry := ⟨path, member.1, member.2⟩

/-- The entries of an object, none of which is reported with a place of its own. -/
def plainEntries (members : Json.Members) : List Entry := members.map (Entry.ofMember [])

/-- The entries of a list of objects with one member each, the first of them at `index`. -/
def placedEntries (index : Nat) : Json.Members → List Entry
  | [] => []
  | member :: rest => Entry.ofMember [.index index] member :: placedEntries (index + 1) rest

theorem listEntries_singles (members : Json.Members) :
    ∀ index, listEntries index (singles members) = .ok (placedEntries index members) := by
  induction members with
  | nil => intro index; rfl
  | cons member rest ih =>
    intro index
    change (listEntries (index + 1) (singles rest) >>= fun found =>
      pure (Entry.ofMember [.index index] member :: found)) = _
    rw [ih]
    rfl

theorem length_placedEntries (members : Json.Members) :
    ∀ index, (placedEntries index members).length = members.length := by
  induction members with
  | nil => intro index; rfl
  | cons member rest ih =>
    intro index
    rw [placedEntries, List.length_cons, ih, List.length_cons]

/-- An entry is read in the same way wherever it stands. -/
theorem readEntry_ofMember (scope : Scope) (path : Path) (member : String × Json) :
    readEntry scope (.ofMember path member) =
      (readEntry scope (.ofMember [] member)).mapError (.under path) := by
  cases hfield : scope.field? member.1 with
  | none =>
    simp only [readEntry, Entry.ofMember, hfield]
    rfl
  | some declared =>
    simp only [readEntry, Entry.ofMember, hfield]
    cases declared.sortable with
    | false => rfl
    | true =>
      cases readSpec member.2 with
      | error fault => simp [Except.mapError, RequestError.under]
      | ok found => rfl

/-- What is said of a field is reported with the name of the field. -/
theorem path_of_readEntry {member : String × Json} {path : Path} {fault : ShapeFault}
    (h : readEntry scope (.ofMember [] member) = .error (.malformed path fault)) :
    path = [.key member.1] := by
  unfold readEntry at h
  split at h
  · cases h
  · split at h
    · cases h
    · split at h
      · cases h
      · cases h
        rfl

/-- Members that are read as the entries of a list give the same, up to the step to the entry that
is refused. -/
theorem exists_mapM_placedEntries (scope : Scope) (members : Json.Members) :
    ∀ index, ∃ position,
      (placedEntries index members).mapM (readEntry scope) =
          ((plainEntries members).mapM (readEntry scope)).mapError
            (.under [.index (index + position)]) ∧
        ∀ path fault,
          (plainEntries members).mapM (readEntry scope) = .error (.malformed path fault) →
            ∃ field value, members[position]? = some (field, value) ∧ path = [.key field] := by
  induction members with
  | nil =>
    intro index
    refine ⟨0, rfl, fun path fault h => ?_⟩
    cases h
  | cons member rest ih =>
    intro index
    have hplaced := readEntry_ofMember scope [.index index] member
    rw [placedEntries, List.mapM_cons, plainEntries, List.map_cons, List.mapM_cons]
    cases hread : readEntry scope (.ofMember [] member) with
    | error error =>
      -- the first member is refused, and nothing behind it is read
      rw [hread] at hplaced
      refine ⟨0, ?_, fun path fault h => ?_⟩
      · rw [hplaced]
        rfl
      · obtain rfl : error = .malformed path fault := Except.error.inj h
        exact ⟨member.1, member.2, rfl, path_of_readEntry hread⟩
    | ok clause =>
      -- the entry at fault is among the rest, where the steps start one further
      rw [hread] at hplaced
      obtain ⟨position, hrest, hpath⟩ := ih (index + 1)
      have hshift : index + 1 + position = index + (position + 1) := by omega
      refine ⟨position + 1, ?_, fun path fault h => ?_⟩
      · rw [hplaced, ← hshift]
        change (placedEntries (index + 1) rest).mapM (readEntry scope) >>= _ =
          ((plainEntries rest).mapM (readEntry scope) >>= _ : Except _ _).mapError _
        rw [hrest]
        cases (plainEntries rest).mapM (readEntry scope) <;> rfl
      · have herror : (plainEntries rest).mapM (readEntry scope) =
            .error (.malformed path fault) := by
          change (plainEntries rest).mapM (readEntry scope) >>= _ = _ at h
          cases hothers : (plainEntries rest).mapM (readEntry scope) with
          | error error =>
            rw [hothers] at h
            exact h
          | ok clauses =>
            rw [hothers] at h
            cases h
        exact hpath path fault herror

/-- **An object is read like the list of its members.** -/
theorem exists_read_singles (scope : Scope) (members : Json.Members) :
    ∃ position,
      read scope (.array (singles members)) =
          (read scope (.object members)).mapError (.under [.index position]) ∧
        ∀ path fault, read scope (.object members) = .error (.malformed path fault) →
          ∃ field value, members[position]? = some (field, value) ∧ path = [.key field] := by
  obtain ⟨position, hread, hpath⟩ := exists_mapM_placedEntries scope members 0
  rw [Nat.zero_add] at hread
  have hlist : read scope (.array (singles members)) = _ :=
    read_of_entries (listEntries_singles members 0)
  have hplain : entries (.object members) = .ok (plainEntries members) := rfl
  have hobject := @read_of_entries scope _ _ hplain
  have hlength : (plainEntries members).length = members.length := List.length_map _
  rw [hlength] at hobject
  rw [length_placedEntries] at hlist
  refine ⟨position, ?_, fun path fault h => ?_⟩
  · rw [hlist, hobject]
    split
    · rfl
    · exact hread
  · rw [hobject] at h
    split at h
    · cases h
    · exact hpath path fault h

/-! ### Words that are spelled out -/

/-- An object says what a word says. -/
inductive SpelledOut : Json → Json → Prop
  /-- A direction by itself. Where nulls go is left out, `null`, or the default. -/
  | plain {text spelled : String} {direction : Direction} {more : Json.Members}
      (htext : Text.lower text = direction.word) (hspelled : Text.lower spelled = direction.word)
      (hmore : more = [] ∨ more = [("nulls", .null)] ∨
        ∃ nulls, Text.lower nulls = Nulls.unspecified.word ∧ more = [("nulls", .string nulls)]) :
    SpelledOut (.string text) (.object (("direction", .string spelled) :: more))
  /-- A direction and a position of nulls. -/
  | placed {text spelled position : String} {direction : Direction} {nulls : Nulls}
      (hnulls : nulls ≠ .unspecified)
      (htext : Text.lower text = direction.word ++ "_nulls_" ++ nulls.word)
      (hspelled : Text.lower spelled = direction.word)
      (hposition : Text.lower position = nulls.word) :
    SpelledOut (.string text)
      (.object [("direction", .string spelled), ("nulls", .string position)])

/-- A document in which words are spelled out, in any of its entries. -/
inductive Respelled : Json → Json → Prop
  | object {members rest : Json.Members}
      (h : List.Forall₂ (fun member spelled => spelled.1 = member.1 ∧
        (spelled.2 = member.2 ∨ SpelledOut member.2 spelled.2)) members rest) :
    Respelled (.object members) (.object rest)
  | array {items others : List Json}
      (h : List.Forall₂ (fun item other => other = item ∨ ∃ field value spelled,
        item = .single field value ∧ other = .single field spelled ∧ SpelledOut value spelled)
        items others) :
    Respelled (.array items) (.array others)

/-- What is spelled out asks for the same. -/
theorem SpelledOut.exists_asks {value spelled : Json} (h : SpelledOut value spelled) :
    ∃ direction nulls, Asks value direction nulls ∧ Asks spelled direction nulls := by
  cases h with
  | @plain text spelled direction more htext hspelled hmore =>
    refine ⟨direction, .unspecified, .word htext, .object (.word hspelled) ?_⟩
    rcases hmore with rfl | rfl | ⟨nulls, hnulls, rfl⟩
    · exact .absent
    · exact .null
    · exact .word hnulls
  | @placed text spelled position direction nulls hnulls htext hspelled hposition =>
    rw [← shorthand_of_ne hnulls] at htext
    exact ⟨direction, nulls, .word htext, .object (.word hspelled) (.word hposition)⟩

theorem SpelledOut.readSpec_eq {value spelled : Json} (h : SpelledOut value spelled) :
    readSpec spelled = readSpec value := by
  obtain ⟨direction, nulls, hvalue, hspelled⟩ := h.exists_asks
  rw [readSpec_eq_ok_iff.2 hvalue, readSpec_eq_ok_iff.2 hspelled]

/-! ### What the reader looks at -/

/-- What the reader sees of an entry: its place, its field, and what is asked for. -/
def Entry.digest (entry : Entry) : Path × String × Except ShapeFault (Direction × Nulls) :=
  (entry.path, entry.field, readSpec entry.value)

theorem readEntry_congr {entry spelled : Entry} (h : spelled.digest = entry.digest) :
    readEntry scope spelled = readEntry scope entry := by
  obtain ⟨path, field, value⟩ := entry
  obtain ⟨path', field', value'⟩ := spelled
  simp only [Entry.digest, Prod.mk.injEq] at h
  obtain ⟨rfl, rfl, hspec⟩ := h
  simp only [readEntry, hspec]

theorem mapM_readEntry_congr {found : List Entry} :
    ∀ {spelled : List Entry}, spelled.map Entry.digest = found.map Entry.digest →
      spelled.mapM (readEntry scope) = found.mapM (readEntry scope) := by
  induction found with
  | nil =>
    intro spelled h
    rw [List.map_nil, List.map_eq_nil_iff] at h
    rw [h]
  | cons entry found ih =>
    intro spelled h
    obtain ⟨first, more, rfl, hfirst, hmore⟩ := List.map_eq_cons_iff.1 h
    rw [List.mapM_cons, List.mapM_cons, readEntry_congr hfirst, ih hmore]

/-- Documents whose entries look alike are read alike. -/
theorem read_eq_of_digests
    (h : (entries other).map (List.map Entry.digest) =
      (entries document).map (List.map Entry.digest)) :
    read scope other = read scope document := by
  cases hdocument : entries document with
  | error error =>
    cases hother : entries other with
    | error fault =>
      rw [hdocument, hother] at h
      obtain rfl : fault = error := Except.error.inj h
      unfold read
      rw [hdocument, hother]
    | ok spelled =>
      rw [hdocument, hother] at h
      cases h
  | ok found =>
    cases hother : entries other with
    | error fault =>
      rw [hdocument, hother] at h
      cases h
    | ok spelled =>
      -- there are as many entries, so the limit stops both or neither
      rw [hdocument, hother] at h
      have hdigests : spelled.map Entry.digest = found.map Entry.digest := Except.ok.inj h
      have hlength : spelled.length = found.length := by
        simpa using congrArg List.length hdigests
      rw [read_of_entries hdocument, read_of_entries hother, hlength,
        mapM_readEntry_congr hdigests]

theorem listEntries_single (index : Nat) (field : String) (value : Json) (items : List Json) :
    (listEntries index (.single field value :: items)).map (List.map Entry.digest) =
      ((listEntries (index + 1) items).map (List.map Entry.digest)).map
        (Entry.digest ⟨[.index index], field, value⟩ :: ·) := by
  change (listEntries (index + 1) items >>= fun found =>
    pure (⟨[.index index], field, value⟩ :: found)).map _ = _
  cases listEntries (index + 1) items <;> rfl

/-- An item that is no object with one member is refused, whatever follows it. -/
theorem listEntries_of_ne_single {item : Json} (h : ∀ field value, item ≠ .single field value)
    (index : Nat) (items others : List Json) :
    listEntries index (item :: items) = listEntries index (item :: others) := by
  match item with
  | .object [(field, value)] => exact absurd rfl (h field value)
  | .object [] => rfl
  | .object (_ :: _ :: _) => rfl
  | .null => rfl
  | .bool _ => rfl
  | .number _ => rfl
  | .string _ => rfl
  | .array _ => rfl

theorem digests_listEntries
    (h : List.Forall₂ (fun item other => other = item ∨ ∃ field value spelled,
      item = .single field value ∧ other = .single field spelled ∧ SpelledOut value spelled)
      items others) :
    ∀ index, (listEntries index others).map (List.map Entry.digest) =
      (listEntries index items).map (List.map Entry.digest) := by
  induction h with
  | nil => intro index; rfl
  | @cons item spelledItem items others hitem hrest ih =>
    intro index
    rcases hitem with rfl | ⟨field, value, spelled, rfl, rfl, hspelled⟩
    · -- an item that stays as it is may also be one that ends the list with a refusal
      by_cases hsingle : ∃ field value, spelledItem = .single field value
      · obtain ⟨field, value, rfl⟩ := hsingle
        rw [listEntries_single, listEntries_single, ih]
      · have hne : ∀ field value, spelledItem ≠ .single field value :=
          fun field value heq => hsingle ⟨field, value, heq⟩
        rw [listEntries_of_ne_single hne index others items]
    · rw [listEntries_single, listEntries_single, ih, Entry.digest, Entry.digest,
        hspelled.readSpec_eq]

/-- **Spelling words out changes nothing**, neither what is read nor what is refused. -/
theorem read_eq_of_respelled (h : Respelled document other) :
    read scope other = read scope document := by
  refine read_eq_of_digests ?_
  cases h with
  | @object members rest h =>
    refine congrArg Except.ok ?_
    rw [List.map_map, List.map_map]
    induction h with
    | nil => rfl
    | @cons member spelled members rest hmember hrest ih =>
      obtain ⟨field, value⟩ := member
      obtain ⟨_, value'⟩ := spelled
      obtain ⟨rfl, hvalue⟩ := hmember
      have hspec : readSpec value' = readSpec value := by
        rcases hvalue with rfl | hvalue
        · rfl
        · exact hvalue.readSpec_eq
      rw [List.map_cons, List.map_cons, ih]
      simp only [Function.comp, Entry.digest, hspec]
  | array h => exact digests_listEntries h 0

/-- **The shapes of an ordering agree.** An object is read like the list of its members: the same
clauses, or the same failure, where a place that is reported leads through the step to the entry at
fault. And spelling words out as objects, in any entries and any letter case, changes nothing. -/
theorem read_shapes_agree (scope : Scope) :
    (∀ members : Json.Members, ∃ position,
      read scope (.array (singles members)) =
          (read scope (.object members)).mapError (.under [.index position]) ∧
        ∀ path fault, read scope (.object members) = .error (.malformed path fault) →
          ∃ field value, members[position]? = some (field, value) ∧ path = [.key field]) ∧
    ∀ document other, Respelled document other → read scope other = read scope document :=
  ⟨exists_read_singles scope, fun _ _ => read_eq_of_respelled⟩

/-- Accounts, which can be ordered by age and by name. -/
def accountScope : Scope :=
  ⟨"Account",
    ⟨.ofList [("Account", ⟨"Account", [.declare "age" .integer, .declare "name" .string]⟩)]⟩,
    .empty, .sql .sqlite, .empty, {}⟩

/-- The second member is refused, and behind the list's own step to it the place is the same. Two
words in mixed case are spelled out, one of them with the default for nulls. -/
theorem read_shapes_agree_mixed :
    let members := [("age", .string "asc"), ("name", .string "up"), ("size", .null)]
    let document := .array
      [.single "age" (.string "DESC_nulls_Last"), .single "name" (.string "Asc")]
    let spelled := .array
      [.single "age" (.object [("direction", .string "desc"), ("nulls", .string "LAST")]),
        .single "name" (.object [("direction", .string "ASC"), ("nulls", .string "Default")])]
    read accountScope (.object members) =
        .error (.malformed [.key "name"] (.unknownDirection "up")) ∧
      read accountScope (.array (singles members)) =
        .error (.malformed [.index 1, .key "name"] (.unknownDirection "up")) ∧
      Respelled document spelled ∧
      read accountScope document =
        .ok [⟨"age", .descending, .last⟩, ⟨"name", .ascending, .unspecified⟩] ∧
      read accountScope spelled =
        .ok [⟨"age", .descending, .last⟩, ⟨"name", .ascending, .unspecified⟩] := by
  intro members document spelled
  have hobject : read accountScope (.object members) =
      .error (.malformed [.key "name"] (.unknownDirection "up")) := by
    subst members
    rfl
  have hdocument : read accountScope document =
      .ok [⟨"age", .descending, .last⟩, ⟨"name", .ascending, .unspecified⟩] := by
    subst document
    rfl
  have hspelled : Respelled document spelled := by
    refine .array (.cons (.inr ⟨_, _, _, rfl, rfl, ?_⟩) (.cons (.inr ⟨_, _, _, rfl, rfl, ?_⟩) .nil))
    · exact @SpelledOut.placed _ _ _ .descending .last (by decide) rfl rfl rfl
    · exact @SpelledOut.plain _ _ .ascending _ rfl rfl (.inr (.inr ⟨"Default", rfl, rfl⟩))
  obtain ⟨hsingles, hrespelled⟩ := read_shapes_agree accountScope
  obtain ⟨position, hlist, hpath⟩ := hsingles members
  obtain ⟨field, value, hmember, hfield⟩ := hpath _ _ hobject
  -- only the second of the three members is about the field that is reported
  obtain rfl : position = 1 := by
    obtain rfl : field = "name" := by simpa using hfield.symm
    match position with
    | 0 => simp [members] at hmember
    | 1 => rfl
    | 2 => simp [members] at hmember
    | _ + 3 => simp [members] at hmember
  rw [hobject] at hlist
  exact ⟨hobject, hlist, hspelled, hdocument, (hrespelled _ _ hspelled).trans hdocument⟩

end Order

end Criteria
