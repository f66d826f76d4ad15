import Criteria.Json.Reader
import Mathlib.Algebra.Group.Int.Defs

/-!
# Values inside values

What a request binds or matches is taken from its document: the document itself, an item, a member,
or what stands further inside. `Json.Inside` is this relation. It carries what is known of every
part of a document over to the parts that are used; the one such fact needed here is that integers
fit 64 bits.

The reader of JSON text makes a double of every larger integer, so a document that was read has no
other integers. This is an invariant of the reader's stack: the values in open containers fit, one
lexeme adds at most one scalar, and scalars are checked when they are split off the text.

* `Json.Inside` — a value is another one or stands somewhere inside of it;
* `Json.Fits64` — all integers inside fit 64 bits, signed or unsigned;
* `Json.fits64_of_ofText?` — the integers of a text do.
-/

namespace Criteria.Json

/-! ### Inside -/

/-- A value is another one or stands somewhere inside of it. -/
inductive Inside (value : Json) : Json → Prop
  | self : Inside value value
  | item {inner : Json} {items : List Json} (mem : inner ∈ items) (inside : Inside value inner) :
    Inside value (.array items)
  | member {inner : String × Json} {members : List (String × Json)} (mem : inner ∈ members)
      (inside : Inside value inner.2) :
    Inside value (.object members)

theorem Inside.trans {part middle whole : Json} (hpart : part.Inside middle)
    (hmiddle : middle.Inside whole) : part.Inside whole := by
  induction hmiddle with
  | self => exact hpart
  | item mem _ ih => exact .item mem ih
  | member mem _ ih => exact .member mem ih

/-! ### Integers of 64 bits -/

/-- An integer of 64 bits, signed or unsigned. -/
def IsInt64 (i : Int) : Prop := -2 ^ 63 ≤ i ∧ i < 2 ^ 64

/-- All integers inside a value have 64 bits. -/
def Fits64 (value : Json) : Prop := ∀ i, (int i).Inside value → IsInt64 i

theorem Fits64.of_inside {part whole : Json} (h : whole.Fits64) (hpart : part.Inside whole) :
    part.Fits64 :=
  fun i hi => h i (hi.trans hpart)

@[simp] theorem fits64_int {i : Int} : (int i).Fits64 ↔ IsInt64 i := by
  constructor
  · exact fun h => h i .self
  · intro h j hj
    cases hj with
    | self => exact h

@[simp] theorem fits64_array {items : List Json} :
    (array items).Fits64 ↔ ∀ item ∈ items, item.Fits64 := by
  constructor
  · exact fun h item hmem => h.of_inside (.item hmem .self)
  · intro h i hi
    cases hi with
    | item mem inside => exact h _ mem i inside

@[simp] theorem fits64_object {members : List (String × Json)} :
    (object members).Fits64 ↔ ∀ member ∈ members, member.2.Fits64 := by
  constructor
  · exact fun h member hmem => h.of_inside (.member hmem .self)
  · intro h i hi
    cases hi with
    | member mem inside => exact h _ mem i inside

@[simp] theorem fits64_string (text : String) : (string text).Fits64 := nofun

/-! ### Lexemes -/

namespace Token

/-- A lexeme that is a scalar fits. -/
def Fits64 : Token → Prop
  | .scalar value => value.Fits64
  | _ => True

theorem isInt64_of_fits64 {negative : Bool} {magnitude : Nat}
    (h : fits64 negative magnitude = true) :
    IsInt64 (if negative then -(magnitude : Int) else magnitude) := by
  unfold IsInt64
  -- the sign decides between the two ranges
  cases negative with
  | true =>
    have hmagnitude : 0 < magnitude ∧ magnitude ≤ 2 ^ 63 := of_decide_eq_true h
    rw [if_pos rfl]
    omega
  | false =>
    have hmagnitude : magnitude < 2 ^ 64 := of_decide_eq_true h
    rw [if_neg (by decide)]
    omega

/-- A number is read as an integer only if it has 64 bits. -/
theorem fits64_of_scanUnsigned {negative : Bool} {chars rest : List Char} {number : Number}
    (h : scanUnsigned negative chars = some (some number, rest)) :
    (Json.number number).Fits64 := by
  unfold scanUnsigned at h
  simp only [Option.bind_eq_bind, Option.bind_eq_some_iff] at h
  obtain ⟨⟨whole, afterWhole⟩, -, ⟨fraction, afterFraction⟩, -, ⟨exponent, _⟩, -, h⟩ := h
  dsimp only at h
  split at h
  · next hfits =>
    simp only [Bool.and_eq_true] at hfits
    obtain ⟨hnumber, -⟩ := Prod.mk.inj (Option.some.inj h)
    obtain rfl := Option.some.inj hnumber
    exact fits64_int.2 (isInt64_of_fits64 hfits.2)
  · -- everything else becomes a double
    obtain ⟨hnumber, -⟩ := Prod.mk.inj (Option.some.inj h)
    obtain ⟨double, -, rfl⟩ := Option.map_eq_some_iff.1 hnumber
    exact nofun

theorem fits64_of_scanNumber {chars rest : List Char} {number : Number}
    (h : scanNumber chars = some (some number, rest)) : (Json.number number).Fits64 := by
  unfold scanNumber at h
  split at h <;> exact fits64_of_scanUnsigned h

theorem fits64_token (text : OpenText) : text.token.Fits64 := by
  unfold OpenText.token
  split <;> exact trivial

/-- A string holds no integer, readable or not. -/
theorem fits64_of_scanText {text : OpenText} {chars rest : List Char} {token : Token}
    (h : scanText text chars = some (token, rest)) : token.Fits64 := by
  fun_induction scanText text chars with
  | case1 => cases h
  | case2 text _ =>
    obtain ⟨rfl, -⟩ := Prod.mk.inj (Option.some.inj h)
    exact fits64_token text
  | case3 => cases h
  | case4 _ _ _ _ _ _ _ _ ih => exact ih h
  | case5 => cases h
  | case6 _ _ _ _ _ _ ih => exact ih h
  | case7 => cases h
  | case8 _ _ _ _ _ _ _ ih => exact ih h

theorem fits64_of_next? {chars rest : List Char} {token : Token}
    (h : next? chars = some (token, rest)) : token.Fits64 := by
  unfold next? at h
  split at h
  case h_7 => exact fits64_of_scanText h
  case h_11 =>
    obtain ⟨⟨number?, _⟩, hnumber, h⟩ := Option.map_eq_some_iff.1 h
    obtain ⟨rfl, -⟩ := Prod.mk.inj h
    cases number? with
    | none => exact trivial
    | some number => exact fits64_of_scanNumber hnumber
  all_goals
    -- punctuation, or one of the three words
    obtain ⟨rfl, -⟩ := Prod.mk.inj (Option.some.inj h)
    first | exact trivial | exact nofun

theorem fits64_of_scanFrom {acc : List Token} {fuel : Nat} {chars : List Char}
    {tokens : List Token} (h : scanFrom acc fuel chars = some tokens)
    (hacc : ∀ token ∈ acc, token.Fits64) : ∀ token ∈ tokens, token.Fits64 := by
  fun_induction scanFrom acc fuel chars with
  | case1 acc =>
    obtain rfl := Option.some.inj h
    simpa using hacc
  | case2 => cases h
  | case3 _ _ _ _ _ ih => exact ih h hacc
  | case4 => cases h
  | case5 acc fuel c rest _ token rest' hnext ih =>
    exact ih h (List.forall_mem_cons.2 ⟨fits64_of_next? hnext, hacc⟩)

end Token

/-! ### The stack -/

namespace Reader

/-- The members of an open object fit. -/
def OpenMembers.Fits64 (members : OpenMembers) : Prop :=
  ∀ known, members = some known → ∀ member ∈ known, member.2.Fits64

/-- The content of an open container fits. -/
def Frame.Fits64 : Frame → Prop
  | .array items => ∀ item ∈ items, item.Fits64
  | .object members _ => members.Fits64

/-- What was read of the innermost container fits. -/
def Expect.Fits64 : Expect → Prop
  | .key members | .colon members _ | .afterMember members => members.Fits64
  | .afterItem items => ∀ item ∈ items, item.Fits64
  | .done result => result.Fits64
  | .value | .firstItem | .firstKey => True

/-- **The invariant of the reader**: all that was read so far fits. -/
structure State.Fits64 (state : State) : Prop where
  frames : ∀ frame ∈ state.frames, frame.Fits64
  expect : state.expect.Fits64

theorem fits64_some_nil : OpenMembers.Fits64 (some []) := by
  intro known hknown member hmember
  cases hknown
  cases hmember

theorem fits64_deliver {value : Json} (hvalue : value.Fits64) {frames : List Frame}
    (hframes : ∀ frame ∈ frames, frame.Fits64) : (deliver value frames).Fits64 := by
  match frames with
  | [] => exact ⟨hframes, hvalue⟩
  | .array items :: frames =>
    obtain ⟨hitems, hrest⟩ := List.forall_mem_cons.1 hframes
    exact ⟨hrest, List.forall_mem_cons.2 ⟨hvalue, hitems⟩⟩
  | .object members key :: frames =>
    obtain ⟨hmembers, hrest⟩ := List.forall_mem_cons.1 hframes
    refine ⟨hrest, ?_⟩
    intro known hknown
    obtain ⟨before, hbefore, rfl⟩ := Option.map_eq_some_iff.1 hknown
    exact List.forall_mem_cons.2 ⟨hvalue, hmembers before hbefore⟩

/-- The repetitions of a key are merged: what is kept are values of the members. -/
theorem forall_mem_insert {key : String} {value : Json} (hvalue : value.Fits64) {members : Members}
    (hmembers : ∀ member ∈ members, member.2.Fits64) :
    ∀ member ∈ Members.insert key value members, member.2.Fits64 := by
  induction members with
  | nil => exact List.forall_mem_cons.2 ⟨hvalue, List.forall_mem_nil _⟩
  | cons first rest ih =>
    obtain ⟨hfirst, hrest⟩ := List.forall_mem_cons.1 hmembers
    rw [Members.insert]
    split
    · exact List.forall_mem_cons.2 ⟨hvalue, hrest⟩
    · exact List.forall_mem_cons.2 ⟨hfirst, ih hrest⟩

theorem fits64_merge {members : Members} (hmembers : ∀ member ∈ members, member.2.Fits64) :
    (object (Members.merge members)).Fits64 := by
  -- the members seen so far are kept apart from those to come
  have hfold : ∀ (rest acc : Members), (∀ member ∈ rest, member.2.Fits64) →
      (∀ member ∈ acc, member.2.Fits64) →
        ∀ member ∈ rest.foldl (fun acc m => Members.insert m.1 m.2 acc) acc, member.2.Fits64 := by
    intro rest
    induction rest with
    | nil => exact fun acc _ hacc => hacc
    | cons first rest ih =>
      intro acc hrest hacc
      obtain ⟨hfirst, hrest⟩ := List.forall_mem_cons.1 hrest
      exact ih _ hrest (forall_mem_insert hfirst hacc)
  exact fits64_object.2 (hfold members [] hmembers (List.forall_mem_nil _))

variable {options : ReaderOptions} {state next : State} {token : Token}

theorem fits64_of_close? (hsubstitute : ∀ value, options.substitute = some value → value.Fits64)
    {members : OpenMembers} (hmembers : members.Fits64) {value : Json}
    (h : close? options members = some value) : value.Fits64 := by
  unfold close? at h
  split at h
  · exact hsubstitute value h
  · next known =>
    have hknown : ∀ member ∈ known.reverse, member.2.Fits64 := by
      intro member hmember
      exact hmembers known rfl member (List.mem_reverse.1 hmember)
    split at h
    · obtain rfl := Option.some.inj h
      exact fits64_merge hknown
    · obtain rfl := Option.some.inj h
      exact fits64_object.2 hknown

theorem fits64_of_begin (hsubstitute : ∀ value, options.substitute = some value → value.Fits64)
    {frames : List Frame} (hframes : ∀ frame ∈ frames, frame.Fits64) (htoken : token.Fits64)
    (h : begin options frames token = some next) : next.Fits64 := by
  unfold begin at h
  split at h
  · obtain rfl := Option.some.inj h
    exact fits64_deliver htoken hframes
  · obtain rfl := Option.some.inj h
    exact fits64_deliver (fits64_string _) hframes
  · obtain ⟨value, hvalue, rfl⟩ := Option.map_eq_some_iff.1 h
    exact fits64_deliver (hsubstitute value hvalue) hframes
  · obtain ⟨-, h⟩ := Option.ite_none_right_eq_some.1 h
    obtain rfl := Option.some.inj h
    exact ⟨hframes, trivial⟩
  · obtain ⟨-, h⟩ := Option.ite_none_right_eq_some.1 h
    obtain rfl := Option.some.inj h
    exact ⟨hframes, trivial⟩
  · cases h

theorem fits64_of_beginMember {frames : List Frame} (hframes : ∀ frame ∈ frames, frame.Fits64)
    {members : OpenMembers} (hmembers : members.Fits64)
    (h : beginMember options frames members token = some next) : next.Fits64 := by
  unfold beginMember at h
  split at h
  · obtain rfl := Option.some.inj h
    exact ⟨hframes, hmembers⟩
  · obtain ⟨_, -, rfl⟩ := Option.map_eq_some_iff.1 h
    exact ⟨hframes, nofun⟩
  · cases h

/-- One lexeme keeps the invariant. -/
theorem State.Fits64.step (hsubstitute : ∀ value, options.substitute = some value → value.Fits64)
    (hstate : state.Fits64) (htoken : token.Fits64)
    (h : Reader.step options state token = some next) : next.Fits64 := by
  obtain ⟨frames, expect⟩ := state
  obtain ⟨hframes, hexpect⟩ := hstate
  -- a lexeme delivers a value, opens a container or moves on within one, as what may come next says
  cases expect with
  | value => exact fits64_of_begin hsubstitute hframes htoken h
  | firstItem =>
    simp only [Reader.step] at h
    split at h
    · obtain rfl := Option.some.inj h
      exact fits64_deliver (fits64_array.2 (List.forall_mem_nil _)) hframes
    · refine fits64_of_begin hsubstitute (List.forall_mem_cons.2 ⟨?_, hframes⟩) htoken h
      exact List.forall_mem_nil _
  | firstKey =>
    simp only [Reader.step] at h
    split at h
    · obtain rfl := Option.some.inj h
      exact fits64_deliver (fits64_object.2 (List.forall_mem_nil _)) hframes
    · exact fits64_of_beginMember hframes fits64_some_nil h
  | key members => exact fits64_of_beginMember hframes hexpect h
  | colon members key =>
    obtain ⟨-, h⟩ := Option.ite_none_right_eq_some.1 h
    obtain rfl := Option.some.inj h
    exact ⟨List.forall_mem_cons.2 ⟨hexpect, hframes⟩, trivial⟩
  | afterItem items =>
    simp only [Reader.step] at h
    split at h
    · obtain rfl := Option.some.inj h
      exact ⟨List.forall_mem_cons.2 ⟨hexpect, hframes⟩, trivial⟩
    · obtain rfl := Option.some.inj h
      refine fits64_deliver (fits64_array.2 ?_) hframes
      intro item hitem
      exact hexpect item (List.mem_reverse.1 hitem)
    · cases h
  | afterMember members =>
    simp only [Reader.step] at h
    split at h
    · obtain rfl := Option.some.inj h
      exact ⟨hframes, hexpect⟩
    · obtain ⟨value, hvalue, rfl⟩ := Option.map_eq_some_iff.1 h
      exact fits64_deliver (fits64_of_close? hsubstitute hexpect hvalue) hframes
    · cases h
  | done result => cases h

/-- And so do all lexemes in turn. -/
theorem State.Fits64.run (hsubstitute : ∀ value, options.substitute = some value → value.Fits64)
    {tokens : List Token} (htokens : ∀ token ∈ tokens, token.Fits64) (hstate : state.Fits64)
    (h : Reader.run options state tokens = some next) : next.Fits64 := by
  induction tokens generalizing state with
  | nil =>
    obtain rfl := Option.some.inj h
    exact hstate
  | cons token rest ih =>
    obtain ⟨htoken, hrest⟩ := List.forall_mem_cons.1 htokens
    rw [Reader.run] at h
    split at h
    · cases h
    · next between hbetween => exact ih hrest (hstate.step hsubstitute htoken hbetween) h

end Reader

/-- **The integers of a text have 64 bits.** -/
theorem fits64_of_ofText? {text : String} {value : Json} (h : ofText? text = some value) :
    value.Fits64 := by
  unfold ofText? read? at h
  simp only [Option.bind_eq_bind, Option.bind_eq_some_iff] at h
  obtain ⟨tokens, htokens, state, hstate, h⟩ := h
  have hscanned : ∀ token ∈ tokens, token.Fits64 :=
    Token.fits64_of_scanFrom htokens (List.forall_mem_nil _)
  -- nothing stands for what is unreadable, and the reader starts with nothing open
  have hstart : Reader.State.Fits64 ⟨[], .value⟩ := ⟨List.forall_mem_nil _, trivial⟩
  have hfits : state.Fits64 := by
    refine hstart.run ?_ hscanned hstate
    exact nofun
  split at h
  · obtain rfl := Option.some.inj h
    exact hfits.expect
  · cases h

end Criteria.Json
