import Criteria.Proofs.Sql.Spelling

/-!
# Reading conditions

What the text of a condition says follows from what the texts of its parts say. `Condition.reading?`
computes it by recursion over the condition, and `Condition.reads` says that the reader finds
exactly that in the text. A custom text says what the reader finds in it when it stands alone.

A conjunction does not say what its parts say, one by one. Their alternatives run together, because
the text has the parts side by side with `AND` between them.
-/

namespace Criteria.Sql

/-- One atom, if it is known. -/
def atom? {α : Type} (leaf : List Tree → Option α) (trees : List Tree) :
    Option (List (List (Expr α))) :=
  (leaf trees).map fun value => [[.atom value]]

namespace Condition

/-! ### Conditions that a dialect has -/

mutual

/-- Whether a dialect has all tests of a condition. -/
def suits (dialect : Dialect) : Condition → Prop
  | .constant _ => True
  | .test _ check => check.suits dialect
  | .custom _ => True
  | .all parts => suitAll dialect parts
  | .any parts => suitAll dialect parts
  | .not part => suits dialect part

/-- Whether a dialect has all tests of conditions. -/
def suitAll (dialect : Dialect) : List Condition → Prop
  | [] => True
  | part :: parts => suits dialect part ∧ suitAll dialect parts

end

@[simp] theorem suits_allOf {dialect : Dialect} {parts : List Condition} :
    (allOf parts).suits dialect ↔ suitAll dialect parts := by
  cases parts with
  | nil => simp [suits, suitAll]
  | cons part rest => cases rest <;> simp [allOf, suits, suitAll]

@[simp] theorem suits_anyOf {dialect : Dialect} {parts : List Condition} :
    (anyOf parts).suits dialect ↔ suitAll dialect parts := by
  cases parts with
  | nil => simp [suits, suitAll]
  | cons part rest => cases rest <;> simp [anyOf, suits, suitAll]

/-! ### What a condition says -/

variable {α : Type} (leaf : List Tree → Option α) (dialect : Dialect)

/-- The text of a custom filter. -/
def customText (inserts : List Insert) : List Char := chars dialect (inserts.map Insert.piece)

mutual

/-- What a condition says, as alternatives of factors. -/
def reading? : Condition → Option (List (List (Expr α)))
  | .constant value => atom? leaf (constantTrees value)
  | .test reference check => atom? leaf (check.trees dialect reference)
  | .custom inserts => Sql.reading? leaf dialect (customText dialect inserts)
  | .all parts => (conjoined? parts).map fun alternatives => [[.ofAlternatives alternatives]]
  | .any parts => (disjoined? parts).map fun alternatives => [[.ofAlternatives alternatives]]
  | .not part => (reading? part).map fun alternatives => [[.not (.ofAlternatives alternatives)]]

/-- What conditions say with `AND` between them. -/
def conjoined? : List Condition → Option (List (List (Expr α)))
  | [] => none
  | [part] => reading? part
  | part :: rest =>
    (reading? part).bind fun alternatives => (conjoined? rest).map (glue alternatives)

/-- What conditions say with `OR` between them. -/
def disjoined? : List Condition → Option (List (List (Expr α)))
  | [] => none
  | [part] => reading? part
  | part :: rest =>
    (reading? part).bind fun alternatives => (disjoined? rest).map (alternatives ++ ·)

end

theorem reading?_all (parts : List Condition) :
    reading? leaf dialect (.all parts) =
      (conjoined? leaf dialect parts).map fun alternatives => [[.ofAlternatives alternatives]] := by
  rw [reading?]

theorem reading?_any (parts : List Condition) :
    reading? leaf dialect (.any parts) =
      (disjoined? leaf dialect parts).map fun alternatives => [[.ofAlternatives alternatives]] := by
  rw [reading?]

theorem conjoined?_cons_cons (part next : Condition) (rest : List Condition) :
    conjoined? leaf dialect (part :: next :: rest) =
      (reading? leaf dialect part).bind fun alternatives =>
        (conjoined? leaf dialect (next :: rest)).map (glue alternatives) := by
  rw [conjoined?]
  simp

theorem disjoined?_cons_cons (part next : Condition) (rest : List Condition) :
    disjoined? leaf dialect (part :: next :: rest) =
      (reading? leaf dialect part).bind fun alternatives =>
        (disjoined? leaf dialect (next :: rest)).map (alternatives ++ ·) := by
  rw [disjoined?]
  simp

/-- What conditions say when they are read each by itself. -/
def Readings (conditions : List Condition) (readings : List (List (List (Expr α)))) : Prop :=
  List.Forall₂ (fun condition reading => reading? leaf dialect condition = some reading)
    conditions readings

/-- The characters of conditions with a connective between them. -/
theorem chars_joined_cons_cons (connective : String) (part next : Condition)
    (rest : List Condition) :
    chars dialect (joined dialect connective (part :: next :: rest)) =
      chars dialect (part.pieces dialect) ++
        (connective.toList ++ chars dialect (joined dialect connective (next :: rest))) := by
  rw [joined, chars_append, chars_cons, text_fixed]
  simp

variable {leaf dialect} {alternatives : List (List (Expr α))}

/-- `AND` makes the readings of conditions run together. -/
theorem conjoined?_of_readings {conditions : List Condition}
    {readings : List (List (List (Expr α)))} (h : Readings leaf dialect conditions readings)
    (hne : conditions ≠ []) : conjoined? leaf dialect conditions = some (glueAll readings) := by
  induction h with
  | nil => exact absurd rfl hne
  | @cons part reading rest readings hpart hrest ih =>
    -- the last condition has nothing behind it that it could be glued to
    cases hrest with
    | nil => rw [conjoined?, hpart, glueAll_singleton]
    | cons hnext hrest =>
      rw [conjoined?_cons_cons, hpart, Option.bind_some, ih (by simp), Option.map_some]
      rfl

/-- `OR` puts the readings of conditions next to each other. -/
theorem disjoined?_of_readings {conditions : List Condition}
    {readings : List (List (List (Expr α)))} (h : Readings leaf dialect conditions readings)
    (hne : conditions ≠ []) : disjoined? leaf dialect conditions = some readings.flatten := by
  induction h with
  | nil => exact absurd rfl hne
  | @cons part reading rest readings hpart hrest ih =>
    cases hrest with
    | nil => rw [disjoined?, hpart, List.flatten_singleton]
    | cons hnext hrest =>
      rw [disjoined?_cons_cons, hpart, Option.bind_some, ih (by simp), Option.map_some]
      rfl

/-- Readings under a connective: none stand for a constant, a single one stands for itself, and
several are combined between parentheses. -/
def spliced (constant : Option (List (List (Expr α))))
    (combine : List (List (List (Expr α))) → List (List (Expr α))) :
    List (List (List (Expr α))) → Option (List (List (Expr α)))
  | [] => constant
  | [reading] => some reading
  | readings => some [[.ofAlternatives (combine readings)]]

theorem spliced_cons_cons (constant : Option (List (List (Expr α))))
    (combine : List (List (List (Expr α))) → List (List (Expr α)))
    (first second : List (List (Expr α))) (others : List (List (List (Expr α)))) :
    spliced constant combine (first :: second :: others) =
      some [[.ofAlternatives (combine (first :: second :: others))]] := rfl

theorem reading?_allOf {conditions : List Condition} {readings : List (List (List (Expr α)))}
    (h : Readings leaf dialect conditions readings) :
    reading? leaf dialect (allOf conditions) =
      spliced (reading? leaf dialect (.constant true)) glueAll readings := by
  cases h with
  | nil => rfl
  | cons hfirst hrest =>
    cases hrest with
    | nil => exact hfirst
    | cons hnext hrest =>
      have hall := conjoined?_of_readings (.cons hfirst (.cons hnext hrest)) (by simp)
      change reading? leaf dialect (.all _) = _
      rw [reading?_all, hall, Option.map_some, spliced_cons_cons]

theorem reading?_anyOf {conditions : List Condition} {readings : List (List (List (Expr α)))}
    (h : Readings leaf dialect conditions readings) :
    reading? leaf dialect (anyOf conditions) =
      spliced (reading? leaf dialect (.constant false)) List.flatten readings := by
  cases h with
  | nil => rfl
  | cons hfirst hrest =>
    cases hrest with
    | nil => exact hfirst
    | cons hnext hrest =>
      have hany := disjoined?_of_readings (.cons hfirst (.cons hnext hrest)) (by simp)
      change reading? leaf dialect (.any _) = _
      rw [reading?_any, hany, Option.map_some, spliced_cons_cons]

/-- A text that is one operand is read as one atom. -/
theorem reads_atom {text : List Char} {token : Token} {rest : List Tree}
    (hlexes : Lexes dialect text (flattenAll (.token token :: rest)))
    (hkeyword : (Tree.token token).keyword? = none)
    (hoperand : isOperand [] (.token token :: rest) = true)
    (h : atom? leaf (.token token :: rest) = some alternatives) :
    Reads leaf dialect text alternatives := by
  obtain ⟨value, hvalue, rfl⟩ := Option.map_eq_some_iff.1 h
  exact ⟨_, hlexes, alternatives?_atom hkeyword hoperand hvalue⟩

mutual

/-- **The reader finds in the text of a condition what the condition says.** -/
theorem reads {condition : Condition} {alternatives : List (List (Expr α))}
    (hsuits : condition.suits dialect) (h : condition.reading? leaf dialect = some alternatives) :
    Reads leaf dialect (chars dialect (condition.pieces dialect)) alternatives := by
  cases condition with
  | constant value =>
    rw [reading?] at h
    have htext : chars dialect ((constant value).pieces dialect) =
        (if value then "1=1" else "1=0").toList := by
      cases value <;> simp [pieces]
    rw [htext]
    exact reads_atom (lexes_constant dialect value) rfl (by cases value <;> rfl) h
  | test reference check =>
    rw [reading?] at h
    rw [suits] at hsuits
    obtain ⟨token, rest, htrees, hkeyword⟩ := check.trees_eq_cons dialect reference
    have hlexes := check.lexes reference hsuits
    have hoperand := check.isOperand dialect reference
    rw [htrees] at hlexes hoperand h
    rw [pieces]
    exact reads_atom hlexes hkeyword hoperand h
  | custom inserts =>
    -- what a custom text says by itself it also says where it is spliced, if it can be read at all
    rw [reading?] at h
    rw [pieces]
    exact reading?_eq_some_iff.1 h
  | all parts =>
    rw [reading?_all] at h
    rw [suits] at hsuits
    obtain ⟨inside, hinside, rfl⟩ := Option.map_eq_some_iff.1 h
    have henclosed := (reads_conjoined hsuits hinside).enclose
    rw [pieces, chars_cons, chars_append]
    simpa using henclosed
  | any parts =>
    rw [reading?_any] at h
    rw [suits] at hsuits
    obtain ⟨inside, hinside, rfl⟩ := Option.map_eq_some_iff.1 h
    have henclosed := (reads_disjoined hsuits hinside).enclose
    rw [pieces, chars_cons, chars_append]
    simpa using henclosed
  | not part =>
    rw [reading?] at h
    rw [suits] at hsuits
    obtain ⟨inside, hinside, rfl⟩ := Option.map_eq_some_iff.1 h
    have hnegated := (reads hsuits hinside).negate
    rw [pieces, chars_cons, chars_append]
    simpa using hnegated
termination_by sizeOf condition

theorem reads_conjoined {parts : List Condition} {alternatives : List (List (Expr α))}
    (hsuits : suitAll dialect parts) (h : conjoined? leaf dialect parts = some alternatives) :
    Reads leaf dialect (chars dialect (joined dialect " AND " parts)) alternatives := by
  cases parts with
  | nil => exact absurd h (by simp [conjoined?])
  | cons part rest =>
    rw [suitAll] at hsuits
    cases rest with
    | nil =>
      rw [conjoined?] at h
      rw [joined]
      exact reads hsuits.1 h
    | cons next rest =>
      -- the text of the rest is read as one, and the first part is set off from it by the keyword
      rw [conjoined?_cons_cons] at h
      obtain ⟨first, hfirst, h⟩ := Option.bind_eq_some_iff.1 h
      obtain ⟨others, hothers, rfl⟩ := Option.map_eq_some_iff.1 h
      have htext := (reads hsuits.1 hfirst).and (reads_conjoined hsuits.2 hothers)
      rwa [chars_joined_cons_cons]
termination_by sizeOf parts

theorem reads_disjoined {parts : List Condition} {alternatives : List (List (Expr α))}
    (hsuits : suitAll dialect parts) (h : disjoined? leaf dialect parts = some alternatives) :
    Reads leaf dialect (chars dialect (joined dialect " OR " parts)) alternatives := by
  cases parts with
  | nil => exact absurd h (by simp [disjoined?])
  | cons part rest =>
    rw [suitAll] at hsuits
    cases rest with
    | nil =>
      rw [disjoined?] at h
      rw [joined]
      exact reads hsuits.1 h
    | cons next rest =>
      rw [disjoined?_cons_cons] at h
      obtain ⟨first, hfirst, h⟩ := Option.bind_eq_some_iff.1 h
      obtain ⟨others, hothers, rfl⟩ := Option.map_eq_some_iff.1 h
      have htext := (reads hsuits.1 hfirst).or (reads_disjoined hsuits.2 hothers)
      rwa [chars_joined_cons_cons]
termination_by sizeOf parts

end

/-- The text of a condition as an expression. -/
theorem expression?_text {condition : Condition} (hsuits : condition.suits dialect)
    (h : condition.reading? leaf dialect = some alternatives) :
    expression? leaf dialect (condition.text dialect).toList =
      some (.ofAlternatives alternatives) :=
  (reads hsuits h).expression?

end Condition

end Criteria.Sql
