import Criteria.Proofs.Filter.Lowering
import Criteria.Proofs.Sql.Leaf

/-!
# The text of a filter does not depend on the values in it

Two filters with the same connectives, fields and operators are compiled to the same text, whatever
values the client wrote in them. Only two things about an operand may show: how many elements the
list of a membership has, because the text has a placeholder for each of them, and the flag of a
test for null, which is part of the test. `Operand.Alike` allows no more than that.

The statement is about two runs of the compiler. It rests on one fact about leaves: a test is
determined by its form and the numbers of its parameters, and neither depends on the values.

* `Operand.Alike` — operands that an operator may not tell apart;
* `SameOutline` — filters that differ in such operands only;
* `Sql.leaf_eq_of_alike` — a leaf becomes the same condition and binds as many values;
* `compile_eq_of_sameOutline` — the texts of the filters are the same.
-/

namespace Criteria

/-- Operands that an operator may not tell apart: lists of a membership are as long as each other,
flags are equal, and all other operands may be anything. -/
def Operand.Alike (op : Operator) (operand other : Json) : Prop :=
  match op with
  | .isIn | .notIn =>
    ∀ items others, operand = .array items → other = .array others → items.length = others.length
  | .isNull => ∀ flag otherFlag, operand = .bool flag → other = .bool otherFlag → flag = otherFlag
  | _ => True

/-! ### Leaves -/

namespace Sql

variable {dialect : Dialect} {bound : Nat} {field : Field} {op : Operator} {operand other : Json}

/-- How many parameters a test of a form has. -/
def Form.arity : Form → Nat
  | .among _ count => count
  | .between => 2
  | .isNull _ => 0
  | _ => 1

/-- A test has as many parameters as its form says. -/
theorem Test.length_params (check : Test) :
    check.params.length = (check.form dialect).arity := by
  cases check with
  | likeAnyCase param =>
    -- the dialects spell this test in two forms, both with one parameter
    by_cases hdialect : dialect = .postgres <;> simp [Test.params, Test.form, Form.arity, hdialect]
  | _ => rfl

/-- A test is its form and its parameters. -/
theorem Test.eq_of_form_of_params {check next : Test}
    (hform : check.form dialect = next.form dialect) (hparams : check.params = next.params) :
    check = next := by
  by_cases hdialect : dialect = .postgres <;>
    cases check <;> cases next <;> simp_all [Test.form, Test.params]

/-- What the text of a leaf says does not depend on its operand. -/
theorem leafAtom?_eq_of_alike {atom otherAtom : Atom} (halike : Operand.Alike op operand other)
    (hatom : leafAtom? dialect field op operand = some atom)
    (hother : leafAtom? dialect field op other = some otherAtom) : atom = otherAtom := by
  cases op with
  | isIn | notIn =>
    -- only lists have an atom here, and the lists are equally long
    cases operand <;> cases other <;> try (simp [leafAtom?, operatorForm?] at hatom hother; done)
    next items others =>
    have hlength : items.length = others.length := halike items others rfl rfl
    cases items <;> cases others <;> simp_all [leafAtom?, operatorForm?]
  | isNull =>
    cases operand <;> cases other <;> try (simp [leafAtom?, operatorForm?] at hatom hother; done)
    next flag otherFlag =>
    obtain rfl : flag = otherFlag := halike flag otherFlag rfl rfl
    exact Option.some.inj (hatom.symm.trans hother)
  | _ =>
    -- the table has one row for all operands
    exact Option.some.inj (hatom.symm.trans hother)

variable {condition next : Condition} {values others : List Json}

/-- **A leaf becomes the same condition** for two operands that are alike, and binds as many
values. -/
theorem leaf_eq_of_alike (halike : Operand.Alike op operand other)
    (h : leaf dialect bound field op operand = .ok (condition, values))
    (hother : leaf dialect bound field op other = .ok (next, others)) :
    condition = next ∧ values.length = others.length := by
  -- each leaf is a constant or a test, and what it says is the same for both
  rcases leaf_eq_ok h with ⟨value, rfl, rfl, hatom, -⟩ | ⟨check, rfl, hspec⟩ <;>
    rcases leaf_eq_ok hother with ⟨value', rfl, rfl, hatom', -⟩ | ⟨check', rfl, hspec'⟩
  · have hsame := leafAtom?_eq_of_alike halike hatom hatom'
    exact ⟨by rw [Atom.constant.inj hsame], rfl⟩
  · cases leafAtom?_eq_of_alike halike hatom hspec'.atom
  · cases leafAtom?_eq_of_alike halike hspec.atom hatom'
  · have hform : check.form dialect = check'.form dialect :=
      (Atom.test.inj (leafAtom?_eq_of_alike halike hspec.atom hspec'.atom)).2
    have hlength : values.length = others.length := by
      calc values.length
          = check.params.length := by rw [hspec.params, List.length_range']
        _ = (check.form dialect).arity := check.length_params
        _ = (check'.form dialect).arity := by rw [hform]
        _ = check'.params.length := check'.length_params.symm
        _ = others.length := by rw [hspec'.params, List.length_range']
    have hparams : check.params = check'.params := by
      rw [hspec.params, hspec'.params, hlength]
    exact ⟨by rw [Test.eq_of_form_of_params hform hparams], hlength⟩

end Sql

/-! ### Filters -/

namespace Filter

open Sql (Condition)

mutual

/-- Two filters without custom leaves have the same connectives, fields and operators, and operands
that are alike. -/
inductive SameOutline : Filter → Filter → Prop
  | all {parts others : List Filter} :
    SameOutlines parts others → SameOutline (.all parts) (.all others)
  | any {parts others : List Filter} :
    SameOutlines parts others → SameOutline (.any parts) (.any others)
  | not {part other : Filter} : SameOutline part other → SameOutline (.not part) (.not other)
  | field {name : String} {op : Operator} {operand other : Json} :
    Operand.Alike op operand other → SameOutline (.field name op operand) (.field name op other)

/-- Two lists of filters are as long as each other, and their filters have the same outline one by
one. -/
inductive SameOutlines : List Filter → List Filter → Prop
  | nil : SameOutlines [] []
  | cons {part other : Filter} {parts others : List Filter} :
    SameOutline part other → SameOutlines parts others →
      SameOutlines (part :: parts) (other :: others)

end

variable {scope : Scope} {dialect : Dialect}

mutual

/-- **Filters of one outline become the same condition**, and bind as many values. -/
theorem SameOutline.eq_of_lowers {bound : Nat} {filter other : Filter}
    {condition next : Condition} {values others : List Json} :
    SameOutline filter other → Lowers scope dialect bound filter condition values →
      Lowers scope dialect bound other next others →
        condition = next ∧ values.length = others.length
  | .all hsame, .all hparts, .all hothers => by
    obtain ⟨rfl, hlength⟩ := hsame.eq_of_lowersAll hparts hothers
    exact ⟨rfl, hlength⟩
  | .any hsame, .any hparts, .any hothers => by
    obtain ⟨rfl, hlength⟩ := hsame.eq_of_lowersAll hparts hothers
    exact ⟨rfl, hlength⟩
  | .not hsame, .not hpart, .not hother => by
    obtain ⟨rfl, hlength⟩ := hsame.eq_of_lowers hpart hother
    exact ⟨rfl, hlength⟩
  | .field halike, .field hdeclared _ hleaf, .field hdeclared' _ hleaf' => by
    obtain rfl := Option.some.inj (hdeclared.symm.trans hdeclared')
    exact Sql.leaf_eq_of_alike halike hleaf hleaf'

theorem SameOutlines.eq_of_lowersAll {bound : Nat} {parts others : List Filter}
    {conditions next : List Condition} {values bindings : List Json} :
    SameOutlines parts others → LowersAll scope dialect bound parts conditions values →
      LowersAll scope dialect bound others next bindings →
        conditions = next ∧ values.length = bindings.length
  | .nil, .nil, .nil => ⟨rfl, rfl⟩
  | .cons hsame hsames, .cons hpart hparts, .cons hother hothers => by
    obtain ⟨rfl, hlength⟩ := hsame.eq_of_lowers hpart hother
    -- as many values have been bound, so the rest is numbered on from the same place
    rw [← hlength] at hothers
    obtain ⟨rfl, hlengths⟩ := hsames.eq_of_lowersAll hparts hothers
    exact ⟨rfl, by rw [List.length_append, List.length_append, hlength, hlengths]⟩

end

/-- **The values of a client do not reach the text.** If two filters of the same outline compile
under a dialect, their texts are the same, and the compiled filters differ in their parameters
only, of which they have equally many. -/
theorem compile_eq_of_sameOutline {filter other : Filter} {predicate next : Predicate}
    (hadapter : scope.adapter = .sql dialect) (hsame : SameOutline filter other)
    (h : filter.compile scope = .ok predicate) (hother : other.compile scope = .ok next) :
    (∃ sql, predicate.sql? = some sql ∧ next.sql? = some sql) ∧
      next = { predicate with params := next.params } ∧
      next.params.length = predicate.params.length := by
  obtain ⟨condition, hlowers, hpredicate⟩ := compile_eq_ok hadapter h
  obtain ⟨condition', hlowers', hnext⟩ := compile_eq_ok hadapter hother
  -- the text is written from the condition alone
  obtain ⟨rfl, hlength⟩ := hsame.eq_of_lowers hlowers hlowers'
  refine ⟨⟨condition.text dialect, ?_, ?_⟩, ?_, hlength.symm⟩
  · rw [hpredicate]
    rfl
  · rw [hnext]
    rfl
  · rw [hpredicate, hnext]

/-- A list, a pattern, a range and a test for null, first with plain values and then with values
that would end the text early if they were written into it. -/
theorem compile_eq_of_sameOutline_hostile :
    let scope : Scope :=
      ⟨"User", ⟨.ofList [("User", ⟨"User",
          [⟨"age", "u.age", .integer, true, true⟩, .declare "name" .string]⟩)]⟩,
        .empty, .sql .mssql, .empty, {}⟩
    let filter (first second pattern low high : Json) : Filter :=
      .all [.field "name" .isIn (.array [first, second]),
        .not (.any [.field "name" .startsWith pattern, .field "age" .between (.array [low, high])]),
        .field "name" .isNull (.bool false)]
    let predicate (params : List Json) : Predicate :=
      ⟨.sql .mssql, .sql (.all [.test "name" (.among true [1, 2]),
        .not (.any [.test "name" (.likeEscaped 3), .test "u.age" (.between 4 5)]),
        .test "name" (.isNull false)]), params⟩
    let plain : Filter := filter (.string "a") (.string "b") (.string "c") (.int 1) (.int 2)
    let hostile : Filter :=
      filter (.string "') OR 1=1 --") .null (.string "[%_!]@p9") (.array []) (.object [])
    let values : List Json := [.string "a", .string "b", .string "c%", .int 1, .int 2]
    let others : List Json :=
      [.string "') OR 1=1 --", .null, .string "![!%!_!!]@p9%", .array [], .object []]
    SameOutline plain hostile ∧ plain.compile scope = .ok (predicate values) ∧
      hostile.compile scope = .ok (predicate others) ∧
      ∃ sql, (predicate values).sql? = some sql ∧ (predicate others).sql? = some sql := by
  intro scope filter predicate plain hostile values others
  have hsame : SameOutline plain hostile := by
    refine .all (.cons (.field ?_) (.cons (.not (.any (.cons (.field trivial)
      (.cons (.field trivial) .nil)))) (.cons (.field ?_) .nil)))
    · -- both lists have two elements
      rintro _ _ ⟨⟩ ⟨⟩
      rfl
    · rintro _ _ ⟨⟩ ⟨⟩
      rfl
  have hplain : plain.compile scope = .ok (predicate values) := rfl
  have hhostile : hostile.compile scope = .ok (predicate others) := rfl
  have hadapter : scope.adapter = .sql .mssql := rfl
  obtain ⟨hsql, -, -⟩ := compile_eq_of_sameOutline hadapter hsame hplain hhostile
  exact ⟨hsame, hplain, hhostile, hsql⟩

end Filter

end Criteria
