import Criteria.Proofs.Filter.Lowering
import Criteria.Proofs.Sql.Atom
import Criteria.Proofs.Sql.Reading

/-!
# The text of a filter has the structure of the filter

A filter without custom leaves is compiled to a text that is read back as the filter itself. What
the reader should find is computed from the filter by `shape?`, which knows nothing of texts: the
connectives of the filter, with the empty ones as constants and a single part in place of its
connective, over the atoms that the operators stand for.

Every part of a conjunction says one thing only. This is what keeps the parts apart where the
compiler splices their texts: a disjunction and a longer conjunction bring parentheses of their own,
and a test is one operand, also if it holds an `AND`.
-/

namespace Criteria.Filter

open Sql (Atom Condition)

/-! ### The structure of a filter -/

/-- What an empty connective should say: it is written as a constant. -/
def constantShape (value : Bool) : Expr Atom := .atom (.constant value)

section Shape

variable (scope : Scope) (dialect : Dialect)

mutual

/-- What the text of a filter should say. -/
def shape? : Filter → Option (Expr Atom)
  | .all parts => (shapes? parts).map (.allOr (constantShape true))
  | .any parts => (shapes? parts).map (.anyOr (constantShape false))
  | .not part => (shape? part).map .not
  | .field name op operand =>
    (scope.field? name).bind fun declared =>
      (Sql.leafAtom? dialect declared op operand).map .atom
  | .custom .. => none

/-- What the texts of filters should say. -/
def shapes? : List Filter → Option (List (Expr Atom))
  | [] => some []
  | part :: parts => (shape? part).bind fun shape => (shapes? parts).map (shape :: ·)

end

end Shape

variable {scope : Scope} {dialect : Dialect}

/-! ### What is compiled suits the dialect -/

mutual

/-- A filter only becomes tests that the dialect has. -/
theorem Lowers.suits {bound : Nat} {filter : Filter} {condition : Condition} {values : List Json} :
    Lowers scope dialect bound filter condition values → condition.suits dialect
  | .all hparts => Condition.suits_allOf.2 hparts.suitAll
  | .any hparts => Condition.suits_anyOf.2 hparts.suitAll
  | .not hpart => by
    rw [Condition.suits]
    exact hpart.suits
  | .field _ _ hleaf => by
    rcases Sql.leaf_eq_ok hleaf with ⟨value, rfl, -⟩ | ⟨check, rfl, hspec⟩
    · rw [Condition.suits]
      trivial
    · rw [Condition.suits]
      exact hspec.suits
  | .custom _ _ => by
    rw [Condition.suits]
    trivial

theorem LowersAll.suitAll {bound : Nat} {parts : List Filter} {conditions : List Condition}
    {values : List Json} :
    LowersAll scope dialect bound parts conditions values → Condition.suitAll dialect conditions
  | .nil => by
    rw [Condition.suitAll]
    trivial
  | .cons hpart hparts => by
    rw [Condition.suitAll]
    exact ⟨hpart.suits, hparts.suitAll⟩

end

/-! ### What is compiled says what the filter does -/

section Singles

variable {conditions : List Condition} {shapes : List (Expr Atom)}

/-- Conditions say one thing each. -/
def Say (dialect : Dialect) (conditions : List Condition) (shapes : List (Expr Atom)) : Prop :=
  Condition.Readings (Atom.read? dialect) dialect conditions (shapes.map fun shape => [[shape]])

theorem reading?_constant (value : Bool) :
    (Condition.constant value).reading? (Atom.read? dialect) dialect =
      some [[.atom (.constant value)]] := by
  rw [Condition.reading?, Sql.atom?, Sql.read?_constant, Option.map_some]

/-- With `AND` between them they are the factors of one conjunction. -/
theorem Say.allOf (h : Say dialect conditions shapes) :
    (Condition.allOf conditions).reading? (Atom.read? dialect) dialect =
      some [[.allOr (constantShape true) shapes]] := by
  rw [Condition.reading?_allOf h]
  match shapes with
  | [] => exact reading?_constant true
  | [shape] => rfl
  | first :: next :: rest =>
    -- single alternatives of one factor run together into one alternative of all factors
    have hglue := glueAll_map_singletons (List.cons_ne_nil first (next :: rest))
    simp only [List.map_cons] at hglue ⊢
    rw [Condition.spliced_cons_cons, hglue]
    rfl

/-- With `OR` between them they are the alternatives of one disjunction. -/
theorem Say.anyOf (h : Say dialect conditions shapes) :
    (Condition.anyOf conditions).reading? (Atom.read? dialect) dialect =
      some [[.anyOr (constantShape false) shapes]] := by
  rw [Condition.reading?_anyOf h]
  match shapes with
  | [] => exact reading?_constant false
  | [shape] => rfl
  | first :: next :: rest =>
    -- each alternative has one factor and is the conjunction of it
    have hflatten : ∀ shapes : List (Expr Atom),
        (shapes.map fun shape => [[shape]]).flatten.map Expr.conjunction = shapes := by
      intro shapes
      induction shapes with
      | nil => rfl
      | cons shape shapes ih => simpa using ih
    have hparts := hflatten (first :: next :: rest)
    simp only [List.map_cons] at hparts ⊢
    rw [Condition.spliced_cons_cons, Expr.ofAlternatives, hparts]
    rfl

end Singles

mutual

/-- **A compiled filter says what its structure is.** -/
theorem Lowers.says {bound : Nat} {filter : Filter} {condition : Condition} {values : List Json} :
    Lowers scope dialect bound filter condition values → filter.isBuiltin = true →
      ∃ shape, filter.shape? scope dialect = some shape ∧
        condition.reading? (Atom.read? dialect) dialect = some [[shape]]
  | .all hparts, hbuiltin => by
    rw [isBuiltin] at hbuiltin
    obtain ⟨shapes, hshapes, hsay⟩ := hparts.say hbuiltin
    exact ⟨_, by rw [shape?, hshapes, Option.map_some], hsay.allOf⟩
  | .any hparts, hbuiltin => by
    rw [isBuiltin] at hbuiltin
    obtain ⟨shapes, hshapes, hsay⟩ := hparts.say hbuiltin
    exact ⟨_, by rw [shape?, hshapes, Option.map_some], hsay.anyOf⟩
  | .not hpart, hbuiltin => by
    -- the parentheses behind `NOT` hold whatever the part says
    rw [isBuiltin] at hbuiltin
    obtain ⟨shape, hshape, hreading⟩ := hpart.says hbuiltin
    refine ⟨.not shape, by rw [shape?, hshape, Option.map_some], ?_⟩
    rw [Condition.reading?, hreading]
    rfl
  | .field hdeclared _ hleaf, _ => by
    rcases Sql.leaf_eq_ok hleaf with ⟨value, rfl, -, hatom, -⟩ | ⟨check, rfl, hspec⟩
    · refine ⟨.atom (.constant value), ?_, reading?_constant value⟩
      rw [shape?, hdeclared, Option.bind_some, hatom, Option.map_some]
    · refine ⟨_, by rw [shape?, hdeclared, Option.bind_some, hspec.atom, Option.map_some], ?_⟩
      rw [Condition.reading?, Sql.atom?, Sql.read?_test _ _ _ hspec.ne_among_nil]
      rfl
  | .custom _ _, hbuiltin => by
    rw [isBuiltin] at hbuiltin
    cases hbuiltin

theorem LowersAll.say {bound : Nat} {parts : List Filter} {conditions : List Condition}
    {values : List Json} :
    LowersAll scope dialect bound parts conditions values → areBuiltin parts = true →
      ∃ shapes, shapes? scope dialect parts = some shapes ∧ Say dialect conditions shapes
  | .nil, _ => ⟨[], by rw [shapes?], .nil⟩
  | .cons hpart hparts, hbuiltin => by
    rw [areBuiltin, Bool.and_eq_true] at hbuiltin
    obtain ⟨shape, hshape, hreading⟩ := hpart.says hbuiltin.1
    obtain ⟨shapes, hshapes, hsay⟩ := hparts.say hbuiltin.2
    refine ⟨shape :: shapes, ?_, .cons hreading hsay⟩
    rw [shapes?, hshape, Option.bind_some, hshapes, Option.map_some]

end

/-- **The text of a compiled filter is read back as the filter.** For every filter of built-in
leaves that compiles under a dialect, the reader finds in the text exactly the structure of the
filter. -/
theorem compile_reads_back {filter : Filter} {predicate : Predicate}
    (hadapter : scope.adapter = .sql dialect) (hbuiltin : filter.isBuiltin = true)
    (h : filter.compile scope = .ok predicate) :
    ∃ sql shape, predicate.sql? = some sql ∧ filter.shape? scope dialect = some shape ∧
      Sql.expression? (Atom.read? dialect) dialect sql.toList = some shape := by
  obtain ⟨condition, hlowers, hpredicate⟩ := compile_eq_ok hadapter h
  obtain ⟨shape, hshape, hreading⟩ := hlowers.says hbuiltin
  refine ⟨condition.text dialect, shape, by rw [hpredicate]; rfl, hshape, ?_⟩
  exact Condition.expression?_text hlowers.suits hreading

/-- A filter in which a range, an empty list, an empty conjunction and a single part are spliced
below a negation, and what its text says. -/
theorem compile_reads_back_nested :
    let scope : Scope :=
      ⟨"User", ⟨.ofList [("User", ⟨"User",
          [⟨"age", "u.age", .integer, true, true⟩, .declare "name" .string]⟩)]⟩,
        .empty, .sql .mysql, .empty, {}⟩
    let filter : Filter :=
      .not (.all [.field "age" .between (.array [.int 1, .int 9]),
        .any [.field "name" .isIn (.array []), .all [],
          .any [.field "name" .contains (.string "x")]]])
    let predicate : Predicate :=
      ⟨.sql .mysql, .sql (.not (.all [.test "u.age" (.between 1 2),
        .any [.constant false, .constant true, .test "name" (.likeEscaped 3)]])),
        [.int 1, .int 9, .string "%x%"]⟩
    let sql : String := "NOT ((\x60u\x60.\x60age\x60 BETWEEN ? AND ? AND " ++
      "(1=0 OR 1=1 OR \x60name\x60 LIKE ? ESCAPE '!')))"
    let shape : Expr Atom :=
      .not (.all [.atom (.test [['u'], ['a', 'g', 'e']] .between),
        .any [.atom (.constant false), .atom (.constant true),
          .atom (.test [['n', 'a', 'm', 'e']] .likeEscaped)]])
    filter.compile scope = .ok predicate ∧ predicate.sql? = some sql ∧
      filter.shape? scope .mysql = some shape ∧
      Sql.expression? (Atom.read? .mysql) .mysql sql.toList = some shape := by
  intro scope filter predicate sql shape
  have hcompile : filter.compile scope = .ok predicate := rfl
  obtain ⟨text, found, htext, hfound, hreads⟩ := @compile_reads_back scope .mysql filter predicate
    rfl rfl hcompile
  have hsql : predicate.sql? = some sql := rfl
  have hshape : filter.shape? scope .mysql = some shape := rfl
  obtain rfl := Option.some.inj (htext.symm.trans hsql)
  obtain rfl := Option.some.inj (hfound.symm.trans hshape)
  exact ⟨hcompile, hsql, hshape, hreads⟩

end Criteria.Filter
