import Criteria.Proofs.Sql.Spelling
import Criteria.Sql.Leaf

/-!
# What leaves become

A leaf says in which form a column is tested and which values the test binds. Both are tables over
the operators: `leafAtom?` is what the text of a leaf should say, and `leafBindings` are the values
that should be bound. `leaf_eq_ok` says that every leaf which compiles keeps to the tables, and that
its parameters are numbered on from those before it.

Membership in an empty list tests no column. Nothing is in the list and everything is outside it.
-/

namespace Criteria.Sql

/-! ### Forms of tests -/

/-- The form of a test: how a column is tested, without the numbers of the parameters. -/
inductive Form where
  | compare (comparison : Comparison)
  /-- `IN` or `NOT IN` a list with so many elements. -/
  | among (positive : Bool) (count : Nat)
  | like
  /-- `ILIKE`. -/
  | likeAnyCase
  /-- `LIKE` with both sides in lower case. -/
  | likeLowered
  /-- `LIKE` with an escape character. -/
  | likeEscaped
  | hasAll
  | overlaps
  | between
  | isNull (positive : Bool)
deriving DecidableEq, Repr

/-- What the text of a leaf says. -/
inductive Atom where
  | constant (value : Bool)
  /-- A column, given by the segments of its path, is tested in a form. -/
  | test (column : List (List Char)) (form : Form)
deriving DecidableEq, Repr

/-- The form of a test in a dialect. -/
def Test.form (dialect : Dialect) : Test → Form
  | compare comparison _ => .compare comparison
  | among positive params => .among positive params.length
  | like _ => .like
  | likeAnyCase _ => if dialect = .postgres then .likeAnyCase else .likeLowered
  | likeEscaped _ => .likeEscaped
  | hasAll _ => .hasAll
  | overlaps _ => .overlaps
  | between _ _ => .between
  | isNull positive => .isNull positive

/-- The parameters of a test, in the order in which it names them. -/
def Test.params : Test → List Nat
  | compare _ param => [param]
  | among _ params => params
  | like param => [param]
  | likeAnyCase param => [param]
  | likeEscaped param => [param]
  | hasAll param => [param]
  | overlaps param => [param]
  | between low high => [low, high]
  | isNull _ => []

/-! ### The tables of the operators -/

/-- The form of an operator, `none` if no dialect of SQL has the operator for such an operand. -/
def operatorForm? (dialect : Dialect) (kind : Kind) : Operator → Json → Option Form
  | .eq, _ => some (.compare .equal)
  | .neq, _ => some (.compare .unequal)
  | .gt, _ => some (.compare .above)
  | .gte, _ => some (.compare .atLeast)
  | .lt, _ => some (.compare .below)
  | .lte, _ => some (.compare .atMost)
  | .isIn, .array items => some (.among true items.length)
  | .notIn, .array items => some (.among false items.length)
  | .like, _ => some .like
  | .ilike, _ => some (if dialect = .postgres then .likeAnyCase else .likeLowered)
  | .contains, _ => some (if kind = .array then .hasAll else .likeEscaped)
  | .startsWith, _ => some .likeEscaped
  | .endsWith, _ => some .likeEscaped
  | .between, _ => some .between
  | .isNull, .bool positive => some (.isNull positive)
  | .overlaps, _ => some .overlaps
  | _, _ => none

/-- What the text of a leaf should say. -/
def leafAtom? (dialect : Dialect) (field : Field) (op : Operator) (operand : Json) : Option Atom :=
  match op, operand with
  | .isIn, .array [] => some (.constant false)
  | .notIn, .array [] => some (.constant true)
  | op, operand => (operatorForm? dialect field.kind op operand).map (.test field.segments)

/-- The values a leaf should bind: the elements of a list or of a range, nothing for a test for
null, an escaped pattern for a text that is looked for, and the operand itself otherwise. -/
def leafBindings (dialect : Dialect) (kind : Kind) : Operator → Json → List Json
  | .isIn, .array items => items
  | .notIn, .array items => items
  | .between, .array bounds => bounds
  | .isNull, _ => []
  | .contains, .string text =>
    if kind = .array then [.string text] else [.string (literalPattern dialect .within text)]
  | .startsWith, .string text => [.string (literalPattern dialect .atStart text)]
  | .endsWith, .string text => [.string (literalPattern dialect .atEnd text)]
  | _, operand => [operand]

/-! ### Leaves that compile -/

variable {dialect : Dialect} {bound : Nat} {field : Field} {op : Operator} {operand : Json}
  {condition : Condition} {values : List Json}

/-- What is said of the test that a leaf becomes and of the values it binds. -/
structure LeafSpec (dialect : Dialect) (bound : Nat) (field : Field) (op : Operator)
    (operand : Json) (check : Test) (values : List Json) : Prop where
  /-- The dialect has the test. -/
  suits : check.suits dialect
  /-- Its parameters are those behind the ones bound before. -/
  params : check.params = List.range' (bound + 1) values.length
  /-- It is the test of the operator. -/
  atom : leafAtom? dialect field op operand = some (.test field.segments (check.form dialect))
  /-- The values are those of the operator. -/
  bindings : values = leafBindings dialect field.kind op operand

/-- Only the membership operators test for membership, and in the list they are given. -/
theorem operatorForm?_eq_among {kind : Kind} {positive : Bool} {count : Nat}
    (h : operatorForm? dialect kind op operand = some (.among positive count)) :
    ∃ items, operand = .array items ∧ items.length = count ∧
      op = if positive then .isIn else .notIn := by
  cases op with
  | isIn | notIn =>
    cases operand with
    | array items => cases h; exact ⟨items, rfl, rfl, rfl⟩
    | _ => cases h
  | ilike | contains =>
    have h := Option.some.inj h
    split at h <;> cases h
  | isNull => cases operand <;> cases h
  | _ => cases h

/-- A test never asks for membership in an empty list. -/
theorem LeafSpec.ne_among_nil {check : Test}
    (h : LeafSpec dialect bound field op operand check values) (positive : Bool) :
    check ≠ .among positive [] := by
  rintro rfl
  have hatom := h.atom
  unfold leafAtom? at hatom
  split at hatom
  · cases hatom
  · cases hatom
  · next hisIn hnotIn =>
    -- the list would be empty, and empty lists have been treated before
    obtain ⟨form, hform, htest⟩ := Option.map_eq_some_iff.1 hatom
    obtain rfl : form = .among positive 0 := (Atom.test.inj htest).2
    obtain ⟨items, rfl, hlength, rfl⟩ := operatorForm?_eq_among hform
    obtain rfl := List.length_eq_zero_iff.1 hlength
    cases positive with
    | true => exact hisIn rfl rfl
    | false => exact hnotIn rfl rfl

theorem membership_eq_ok {positive : Bool}
    (h : membership bound field op positive operand = .ok (condition, values)) :
    (operand = .array [] ∧ condition = .constant (!positive) ∧ values = []) ∨
      ∃ items, items ≠ [] ∧ operand = .array items ∧ values = items ∧ condition =
        .test field.reference (.among positive (List.range' (bound + 1) items.length)) := by
  unfold membership at h
  -- the empty list is treated apart, because no dialect allows one in its text
  split at h
  · obtain ⟨rfl, rfl⟩ := Prod.mk.inj (Except.ok.inj h)
    exact .inl ⟨rfl, rfl, rfl⟩
  · next items hitems =>
    obtain ⟨rfl, rfl⟩ := Prod.mk.inj (Except.ok.inj h)
    exact .inr ⟨_, fun hnil => hitems (by rw [hnil]), rfl, rfl, rfl⟩
  · cases h

theorem literalMatch_eq_ok {placement : Placement}
    (h : literalMatch dialect bound field op placement operand = .ok (condition, values)) :
    ∃ text, operand = .string text ∧
      condition = .test field.reference (.likeEscaped (bound + 1)) ∧
      values = [.string (literalPattern dialect placement text)] := by
  unfold literalMatch at h
  split at h
  · next text =>
    obtain ⟨rfl, rfl⟩ := Prod.mk.inj (Except.ok.inj h)
    exact ⟨text, rfl, rfl, rfl⟩
  · cases h

theorem arrayTest_eq_ok {test : Nat → Test}
    (h : arrayTest dialect bound field op operand test = .ok (condition, values)) :
    dialect = .postgres ∧ condition = .test field.reference (test (bound + 1)) ∧
      values = [operand] := by
  unfold arrayTest at h
  split at h
  · next hdialect =>
    obtain ⟨rfl, rfl⟩ := Prod.mk.inj (Except.ok.inj h)
    exact ⟨hdialect, rfl, rfl⟩
  · cases h

/-- **A leaf keeps to the tables.** It is a constant if it asks for membership in an empty list, and
a test of its column otherwise. -/
theorem leaf_eq_ok (h : leaf dialect bound field op operand = .ok (condition, values)) :
    (∃ value, condition = .constant value ∧ values = [] ∧
      leafAtom? dialect field op operand = some (.constant value) ∧
      leafBindings dialect field.kind op operand = []) ∨
    ∃ check, condition = .test field.reference check ∧
      LeafSpec dialect bound field op operand check values := by
  -- by operator: what it becomes is compared with its rows in the tables
  cases op with
  | eq | neq | gt | gte | lt | lte | like =>
    obtain ⟨rfl, rfl⟩ := Prod.mk.inj (Except.ok.inj h)
    exact .inr ⟨_, rfl, trivial, rfl, rfl, rfl⟩
  | ilike =>
    obtain ⟨rfl, rfl⟩ := Prod.mk.inj (Except.ok.inj h)
    exact .inr ⟨_, rfl, trivial, rfl, rfl, rfl⟩
  | isIn =>
    rcases membership_eq_ok h with ⟨rfl, rfl, rfl⟩ | ⟨items, hitems, rfl, rfl, rfl⟩
    · exact .inl ⟨_, rfl, rfl, rfl, rfl⟩
    · obtain ⟨item, rest, rfl⟩ := List.exists_cons_of_ne_nil hitems
      refine .inr ⟨_, rfl, trivial, rfl, ?_, rfl⟩
      simp [leafAtom?, operatorForm?, Test.form]
  | notIn =>
    rcases membership_eq_ok h with ⟨rfl, rfl, rfl⟩ | ⟨items, hitems, rfl, rfl, rfl⟩
    · exact .inl ⟨_, rfl, rfl, rfl, rfl⟩
    · obtain ⟨item, rest, rfl⟩ := List.exists_cons_of_ne_nil hitems
      refine .inr ⟨_, rfl, trivial, rfl, ?_, rfl⟩
      simp [leafAtom?, operatorForm?, Test.form]
  | contains =>
    rw [leaf] at h
    split at h
    · -- on arrays the operand is the list of elements looked for
      next hkind =>
      obtain ⟨rfl, rfl, rfl⟩ := arrayTest_eq_ok h
      refine .inr ⟨_, rfl, rfl, rfl, ?_, ?_⟩
      · simp [leafAtom?, operatorForm?, Test.form, hkind]
      · cases operand <;> simp [leafBindings, hkind]
    · next hkind =>
      obtain ⟨text, rfl, rfl, rfl⟩ := literalMatch_eq_ok h
      refine .inr ⟨_, rfl, trivial, rfl, ?_, ?_⟩
      · simp [leafAtom?, operatorForm?, Test.form, hkind]
      · simp [leafBindings, hkind]
  | startsWith | endsWith =>
    obtain ⟨text, rfl, rfl, rfl⟩ := literalMatch_eq_ok h
    exact .inr ⟨_, rfl, trivial, rfl, rfl, rfl⟩
  | between =>
    unfold leaf at h
    dsimp only at h
    split at h
    · obtain ⟨rfl, rfl⟩ := Prod.mk.inj (Except.ok.inj h)
      exact .inr ⟨_, rfl, trivial, rfl, rfl, rfl⟩
    · cases h
    · cases h
  | isNull =>
    unfold leaf at h
    dsimp only at h
    split at h
    · obtain ⟨rfl, rfl⟩ := Prod.mk.inj (Except.ok.inj h)
      exact .inr ⟨_, rfl, trivial, rfl, rfl, rfl⟩
    · cases h
  | overlaps =>
    obtain ⟨rfl, rfl, rfl⟩ := arrayTest_eq_ok h
    exact .inr ⟨_, rfl, rfl, rfl, rfl, rfl⟩
  | fullText | phrase | near | withinDistance | withinBounds => cases h

end Criteria.Sql
