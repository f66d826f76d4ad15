import Criteria.Proofs.Sql.Leaf

/-!
# Reading atoms

The operands that leaves become are read back as atoms: a constant, or a column with the form in
which it is tested. `Atom.read?` knows no other operands. It does not ask which test it has in front
of it, and `read?_test` says that it finds the right one from the trees alone.
-/

namespace Criteria.Sql

variable (dialect : Dialect)

/-! ### The reader -/

/-- Whether a token is a placeholder. -/
def isPlaceholder (token : Token) : Bool := (token.placeholder? dialect).isSome

/-- The path of a column, and the trees behind it. -/
def column? : List Tree → Option (List (List Char) × List Tree)
  | .token (.quoted segment) :: .token .dot :: rest =>
    (column? rest).map fun (segments, others) => (segment :: segments, others)
  | .token (.quoted segment) :: rest => some ([segment], rest)
  | _ => none

/-- The number of placeholders in a list with commas between them. -/
def countParams? : List Tree → Option Nat
  | [.token param] => if isPlaceholder dialect param then some 1 else none
  | .token param :: .token .comma :: rest =>
    if isPlaceholder dialect param then (countParams? rest).map (· + 1) else none
  | _ => none

/-- The form a sign stands for. -/
def signForm? : List Char → Option Form
  | ['='] => some (.compare .equal)
  | ['<', '>'] => some (.compare .unequal)
  | ['>'] => some (.compare .above)
  | ['>', '='] => some (.compare .atLeast)
  | ['<'] => some (.compare .below)
  | ['<', '='] => some (.compare .atMost)
  | ['@', '>'] => some .hasAll
  | ['&', '&'] => some .overlaps
  | _ => none

/-- The form of a test behind its column. -/
def form? : List Tree → Option Form
  | [.token (.sign sign), .token param] =>
    if isPlaceholder dialect param then signForm? sign else none
  | [.token (.word word), .group params] =>
    if word = "IN".toList then (countParams? dialect params).map (.among true) else none
  | [.token (.word word), .token token] =>
    if word = "IS".toList ∧ token = .word "NULL".toList then some (.isNull true)
    else if isPlaceholder dialect token ∧ word = "LIKE".toList then some .like
    else if isPlaceholder dialect token ∧ word = "ILIKE".toList then some .likeAnyCase
    else none
  | [.token (.word first), .token (.word second), .group params] =>
    if first = "NOT".toList ∧ second = "IN".toList then
      (countParams? dialect params).map (.among false)
    else none
  | [.token (.word first), .token (.word second), .token (.word third)] =>
    if first = "IS".toList ∧ second = "NOT".toList ∧ third = "NULL".toList then
      some (.isNull false)
    else none
  | [.token (.word first), .token param, .token (.word second), .token last] =>
    if ¬ isPlaceholder dialect param then none
    else if first = "BETWEEN".toList ∧ second = "AND".toList ∧ isPlaceholder dialect last then
      some .between
    else if first = "LIKE".toList ∧ second = "ESCAPE".toList ∧ last = .literal [escapeMark] then
      some .likeEscaped
    else none
  | _ => none

/-- The atom an operand is. -/
def Atom.read? : List Tree → Option Atom
  | [.token (.word left), .token (.sign ['=']), .token (.word right)] =>
    if left ≠ "1".toList then none
    else if right = "1".toList then some (.constant true)
    else if right = "0".toList then some (.constant false)
    else none
  | [.token (.word first), .group column, .token (.word second), .token (.word third),
      .group [.token param]] =>
    if first = "LOWER".toList ∧ second = "LIKE".toList ∧ third = "LOWER".toList ∧
        isPlaceholder dialect param then
      match column? column with
      | some (segments, []) => some (.test segments .likeLowered)
      | _ => none
    else none
  | trees =>
    (column? trees).bind fun (segments, rest) => (form? dialect rest).map (.test segments)

/-! ### Its parts on what tests are spelled as -/

theorem isPlaceholder_paramToken (number : Nat) :
    isPlaceholder dialect (paramToken dialect number) = true := by
  rw [isPlaceholder, placeholder?_paramToken, Option.isSome_some]

theorem countParams?_paramTrees {params : List Nat} (hne : params ≠ []) :
    countParams? dialect (paramTrees dialect params) = some params.length := by
  induction params with
  | nil => exact absurd rfl hne
  | cons number rest ih =>
    cases rest with
    | nil => exact if_pos (isPlaceholder_paramToken dialect number)
    | cons next rest =>
      have hrest := ih (by simp)
      rw [paramTrees_cons_cons, paramTree, countParams?,
        if_pos (isPlaceholder_paramToken dialect number), hrest]
      rfl

/-- A column is read up to its last segment. -/
theorem column?_columnTrees (reference : String) {rest : List Tree}
    (hrest : ∀ others, rest ≠ .token .dot :: others) :
    column? (columnTrees reference ++ rest) = some (Text.split '.' reference.toList, rest) := by
  -- the path ends at its last segment, since what follows is no dot
  have hpath : ∀ segments : List (List Char), segments ≠ [] →
      column? ((pathTokens segments).map .token ++ rest) = some (segments, rest) := by
    intro segments
    induction segments with
    | nil => intro hne; exact absurd rfl hne
    | cons segment segments ih =>
      intro _
      cases segments with
      | nil =>
        change column? (.token (.quoted segment) :: rest) = _
        rw [column?]
        intro others hothers
        exact hrest others hothers
      | cons next segments =>
        change column? (.token (.quoted segment) :: .token .dot ::
          ((pathTokens (next :: segments)).map .token ++ rest)) = _
        rw [column?, ih (by simp), Option.map_some]
  exact hpath _ (Text.split_ne_nil '.' reference.toList)

/-- What starts with a column is a test of it. -/
theorem read?_column (reference : String) {rest : List Tree}
    (hrest : ∀ others, rest ≠ .token .dot :: others) :
    Atom.read? dialect (columnTrees reference ++ rest) =
      (form? dialect rest).map (.test (Text.split '.' reference.toList)) := by
  have hcolumn := column?_columnTrees reference hrest
  -- the trees start with quotes, so they are neither a constant nor brought to lower case
  obtain ⟨segment, others, hcons⟩ := columnTrees_eq_cons reference
  rw [hcons, List.cons_append] at hcolumn ⊢
  rw [Atom.read?, hcolumn, Option.bind_some]
  · simp
  · simp

/-! ### Tests and constants -/

/-- **A test is read as its column and its form.** A list must have elements, and then it is read
with their number. -/
theorem read?_test (reference : String) (check : Test)
    (hparams : ∀ positive, check ≠ .among positive []) :
    Atom.read? dialect (check.trees dialect reference) =
      some (.test (Text.split '.' reference.toList) (check.form dialect)) := by
  have hparam := isPlaceholder_paramToken dialect
  -- by test: the column is split off first, and the form is read from what is left
  cases check with
  | compare comparison param =>
    rw [Test.trees, read?_column _ _ (by simp [signTree])]
    have hform : form? dialect [signTree comparison.sign, paramTree dialect param] =
        signForm? comparison.sign.toList := if_pos (hparam param)
    rw [hform]
    cases comparison <;> rfl
  | among positive params =>
    have hcount : countParams? dialect (paramTrees dialect params) = some params.length :=
      countParams?_paramTrees dialect fun hnil => hparams positive (by rw [hnil])
    cases positive with
    | true =>
      rw [Test.trees, read?_column _ _ (by simp [wordTree])]
      simp [form?, wordTree, hcount, Test.form]
    | false =>
      rw [Test.trees, read?_column _ _ (by simp [wordTree])]
      simp [form?, wordTree, hcount, Test.form]
  | like param =>
    rw [Test.trees, read?_column _ _ (by simp [wordTree])]
    simp [form?, wordTree, paramTree, hparam, Test.form]
  | likeAnyCase param =>
    rw [Test.trees]
    split
    · next hdialect =>
      subst hdialect
      rw [read?_column _ _ (by simp [wordTree])]
      simp [form?, wordTree, paramTree, hparam, Test.form]
    · next hdialect =>
      have hcolumn : column? (columnTrees reference ++ []) = _ :=
        column?_columnTrees reference (by simp)
      rw [List.append_nil] at hcolumn
      simp [Atom.read?, wordTree, paramTree, hparam, hcolumn, Test.form, hdialect]
  | likeEscaped param =>
    rw [Test.trees, read?_column _ _ (by simp [wordTree])]
    simp [form?, wordTree, paramTree, hparam, Test.form]
  | hasAll param =>
    rw [Test.trees, read?_column _ _ (by simp [signTree])]
    simp [form?, signTree, paramTree, hparam, Test.form, signForm?]
  | overlaps param =>
    rw [Test.trees, read?_column _ _ (by simp [signTree])]
    simp [form?, signTree, paramTree, hparam, Test.form, signForm?]
  | between low high =>
    rw [Test.trees, read?_column _ _ (by simp [wordTree])]
    simp [form?, wordTree, paramTree, hparam, Test.form]
  | isNull positive =>
    cases positive with
    | true =>
      rw [Test.trees, read?_column _ _ (by simp [wordTree])]
      rfl
    | false =>
      rw [Test.trees, read?_column _ _ (by simp [wordTree])]
      rfl

theorem read?_constant (value : Bool) :
    Atom.read? dialect (constantTrees value) = some (.constant value) := by
  cases value <;> rfl

end Criteria.Sql
