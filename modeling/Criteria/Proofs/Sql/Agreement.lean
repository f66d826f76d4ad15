import Criteria.Proofs.Sql.Leaf
import Criteria.Proofs.Sql.Neutral

/-!
# What dialects agree on

A leaf that two dialects have is the same in both: the same pieces, and values that differ only
where a text of the client has become a pattern, because one dialect reads brackets in patterns and
the others do not. One test is spelled in two ways, the match without regard to case, and the pieces
agree only where it does not occur.

* `Neat` — pieces are spaced, and their parameters have certain numbers;
* `Test.neat`, `Neat.allOf`, `Neat.anyOf`, `Neat.negate` — the pieces of conditions are neat;
* `pieces_allOf_eq`, `pieces_anyOf_eq` — a connective has the same pieces in two dialects if its
  parts have;
* `leaf_agrees` — the pieces of a leaf in two dialects;
* `leafParameters`, `leafBindings_eq_map` — its values, in a form that the dialects share.
-/

namespace Criteria.Sql

variable {dialect first second : Dialect}

/-! ### Neat pieces -/

/-- Pieces are spaced, and their parameters have these numbers. -/
structure Neat (dialect : Dialect) (pieces : List Piece) (numbers : List Nat) : Prop where
  /-- They are set off from each other. -/
  spaced : isSpaced dialect pieces = true
  /-- Their parameters, from left to right. -/
  numbers_eq : pieces.filterMap Piece.number? = numbers

theorem areSetOff_append {others : List Piece} (hothers : areSetOff others = true)
    (pieces : List Piece) : areSetOff (pieces ++ others) = areSetOff pieces := by
  cases pieces with
  | nil => exact hothers
  | cons piece rest => cases piece <;> rfl

theorem isSpaced_append {others : List Piece} (hothers : areSetOff others = true)
    (pieces : List Piece) :
    isSpaced dialect (pieces ++ others) =
      (isSpaced dialect pieces && isSpaced dialect others) := by
  induction pieces with
  | nil => rfl
  | cons piece rest ih =>
    cases piece <;>
      simp [isSpaced, ih, areSetOff_append hothers, Bool.and_assoc]

namespace Neat

variable {pieces others : List Piece} {numbers more : List Nat}

/-- Pieces behind a text that sets them off. -/
theorem append (h : Neat dialect pieces numbers) {sql : String}
    (hsql : areSetOff [.fixed sql] = true) (hplain : isPlainText dialect false sql.toList = true)
    (hothers : Neat dialect others more) :
    Neat dialect (pieces ++ .fixed sql :: others) (numbers ++ more) := by
  have hset : areSetOff (.fixed sql :: others) = true := hsql
  refine ⟨?_, ?_⟩
  · rw [isSpaced_append hset, h.spaced, isSpaced, hplain, hothers.spaced]
    rfl
  · rw [List.filterMap_append, h.numbers_eq, ← hothers.numbers_eq]
    rfl

theorem nil : Neat dialect [] [] := ⟨rfl, rfl⟩

theorem closed (h : Neat dialect pieces numbers) :
    Neat dialect (pieces ++ [.fixed ")"]) numbers := by
  have hplain : isPlainText dialect false ")".toList = true := by cases dialect <;> decide
  have hclosed := h.append rfl hplain nil
  rwa [List.append_nil] at hclosed

/-- Pieces between a text that ends with a parenthesis and the closing one. -/
theorem between (h : Neat dialect pieces numbers) {sql : String}
    (hplain : isPlainText dialect false sql.toList = true) :
    Neat dialect (.fixed sql :: (pieces ++ [.fixed ")"])) numbers := by
  have hclosed := h.closed
  refine ⟨?_, hclosed.numbers_eq⟩
  rw [isSpaced, hplain, hclosed.spaced]
  rfl

theorem enclose (h : Neat dialect pieces numbers) :
    Neat dialect (.fixed "(" :: (pieces ++ [.fixed ")"])) numbers :=
  h.between (by cases dialect <;> decide)

theorem negate (h : Neat dialect pieces numbers) :
    Neat dialect (.fixed "NOT (" :: (pieces ++ [.fixed ")"])) numbers :=
  h.between (by cases dialect <;> decide)

theorem param (number : Nat) : Neat dialect [.param number] [number] := ⟨rfl, rfl⟩

theorem paramPieces (params : List Nat) : Neat dialect (Sql.paramPieces params) params := by
  induction params with
  | nil => exact nil
  | cons number rest ih =>
    cases rest with
    | nil => exact param number
    | cons next rest =>
      have hcomma : isPlainText dialect false ", ".toList = true := by cases dialect <;> decide
      exact (param number).append rfl hcomma ih

end Neat

/-- **The pieces of a test are neat.** -/
theorem Test.neat (reference : String) {check : Test} (hsuits : check.suits dialect) :
    Neat dialect (check.pieces dialect reference) check.params := by
  -- all texts behind a column or a parameter start with a blank or close a parenthesis
  cases check with
  | compare comparison param =>
    refine ⟨?_, rfl⟩
    cases comparison <;> cases dialect <;> rfl
  | among positive params =>
    have hcolumn : Neat dialect [.column reference] [] := ⟨rfl, rfl⟩
    have hlist : Neat dialect (paramPieces params ++ [.fixed ")"]) params :=
      (Neat.paramPieces params).closed
    cases positive with
    | true => exact hcolumn.append rfl (by cases dialect <;> decide) hlist
    | false => exact hcolumn.append rfl (by cases dialect <;> decide) hlist
  | hasAll param | overlaps param =>
    obtain rfl : dialect = .postgres := hsuits
    exact ⟨rfl, rfl⟩
  | like param | likeAnyCase param | likeEscaped param =>
    cases dialect <;> exact ⟨rfl, rfl⟩
  | between low high => cases dialect <;> exact ⟨rfl, rfl⟩
  | isNull positive => cases positive <;> cases dialect <;> exact ⟨rfl, rfl⟩

theorem Neat.constant (value : Bool) :
    Neat dialect ((Condition.constant value).pieces dialect) [] := by
  cases value <;> rw [Condition.pieces] <;> cases dialect <;> exact ⟨rfl, rfl⟩

/-! ### Conditions side by side -/

section Joined

variable {conditions others : List Condition} {numbers : List Nat}

theorem Neat.allOf (h : Neat dialect (Condition.joined dialect " AND " conditions) numbers) :
    Neat dialect ((Condition.allOf conditions).pieces dialect) numbers := by
  match conditions with
  | [] =>
    -- nothing has been numbered yet, and the constant adds nothing
    obtain rfl : [] = numbers := h.numbers_eq
    exact Neat.constant true
  | [condition] => exact h
  | condition :: next :: rest =>
    change Neat dialect ((Condition.all _).pieces dialect) numbers
    rw [Condition.pieces]
    exact h.enclose

theorem Neat.anyOf (h : Neat dialect (Condition.joined dialect " OR " conditions) numbers) :
    Neat dialect ((Condition.anyOf conditions).pieces dialect) numbers := by
  match conditions with
  | [] =>
    obtain rfl : [] = numbers := h.numbers_eq
    exact Neat.constant false
  | [condition] => exact h
  | condition :: next :: rest =>
    change Neat dialect ((Condition.any _).pieces dialect) numbers
    rw [Condition.pieces]
    exact h.enclose

/-- Conditions with a connective between them are their pieces with the connective between them. -/
theorem joined_eq_intercalate (connective : String) (conditions : List Condition) :
    Condition.joined dialect connective conditions =
      List.intercalate [.fixed connective] (conditions.map (Condition.pieces dialect)) := by
  induction conditions with
  | nil => rw [Condition.joined]; rfl
  | cons condition rest ih =>
    cases rest with
    | nil => simp [Condition.joined, List.intercalate]
    | cons next rest =>
      rw [Condition.joined, ih]
      · simp [List.intercalate]
      · exact List.cons_ne_nil next rest

/-- Lists of conditions with the same pieces are both empty, both of a single condition, or both
longer. -/
theorem cases_of_map_eq
    (h : conditions.map (Condition.pieces first) = others.map (Condition.pieces second)) :
    (conditions = [] ∧ others = []) ∨
    (∃ condition other, conditions = [condition] ∧ others = [other] ∧
      condition.pieces first = other.pieces second) ∨
    ∃ condition next rest other next' rest',
      conditions = condition :: next :: rest ∧ others = other :: next' :: rest' := by
  match conditions with
  | [] => exact .inl ⟨rfl, List.map_eq_nil_iff.1 h.symm⟩
  | [condition] =>
    obtain ⟨other, rfl, hother⟩ := List.map_eq_singleton_iff.1 h.symm
    exact .inr (.inl ⟨condition, other, rfl, rfl, hother.symm⟩)
  | condition :: next :: rest =>
    obtain ⟨other, others, rfl, -, hothers⟩ := List.map_eq_cons_iff.1 h.symm
    obtain ⟨next', rest', rfl, -, -⟩ := List.map_eq_cons_iff.1 hothers
    exact .inr (.inr ⟨_, _, _, _, _, _, rfl, rfl⟩)

theorem pieces_allOf_eq
    (h : conditions.map (Condition.pieces first) = others.map (Condition.pieces second)) :
    (Condition.allOf conditions).pieces first = (Condition.allOf others).pieces second := by
  rcases cases_of_map_eq h with
    ⟨rfl, rfl⟩ | ⟨_, _, rfl, rfl, hpieces⟩ | ⟨_, _, _, _, _, _, rfl, rfl⟩
  · rw [Condition.allOf, Condition.pieces, Condition.pieces]
  · exact hpieces
  · change (Condition.all _).pieces first = (Condition.all _).pieces second
    rw [Condition.pieces, Condition.pieces, joined_eq_intercalate, joined_eq_intercalate, h]

theorem pieces_anyOf_eq
    (h : conditions.map (Condition.pieces first) = others.map (Condition.pieces second)) :
    (Condition.anyOf conditions).pieces first = (Condition.anyOf others).pieces second := by
  rcases cases_of_map_eq h with
    ⟨rfl, rfl⟩ | ⟨_, _, rfl, rfl, hpieces⟩ | ⟨_, _, _, _, _, _, rfl, rfl⟩
  · rw [Condition.anyOf, Condition.pieces, Condition.pieces]
  · exact hpieces
  · change (Condition.any _).pieces first = (Condition.any _).pieces second
    rw [Condition.pieces, Condition.pieces, joined_eq_intercalate, joined_eq_intercalate, h]

end Joined

/-! ### Leaves in two dialects -/

variable {bound : Nat} {field : Field} {op : Operator} {operand : Json}
  {condition other : Condition} {values others : List Json}

/-- **A leaf has the same pieces in two dialects** that have it, except for the match without
regard to case. -/
theorem leaf_agrees (hfirst : leaf first bound field op operand = .ok (condition, values))
    (hsecond : leaf second bound field op operand = .ok (other, others))
    (hcase : first = second ∨ op ≠ .ilike) :
    condition.pieces first = other.pieces second ∧ values.length = others.length := by
  rcases hcase with rfl | hcase
  · -- in one dialect a leaf becomes one thing
    obtain ⟨rfl, rfl⟩ := Prod.mk.inj (Except.ok.inj (hfirst.symm.trans hsecond))
    exact ⟨rfl, rfl⟩
  -- by operator: the operand is taken apart in the same way, and the test has one spelling
  cases op with
  | eq | neq | gt | gte | lt | lte | like =>
    obtain ⟨rfl, rfl⟩ := Prod.mk.inj (Except.ok.inj hfirst)
    obtain ⟨rfl, rfl⟩ := Prod.mk.inj (Except.ok.inj hsecond)
    exact ⟨by rw [Condition.pieces, Condition.pieces]; rfl, rfl⟩
  | ilike => exact absurd rfl hcase
  | isIn | notIn =>
    obtain ⟨rfl, rfl⟩ := Prod.mk.inj (Except.ok.inj (hfirst.symm.trans hsecond))
    refine ⟨?_, rfl⟩
    rcases membership_eq_ok hfirst with ⟨-, rfl, -⟩ | ⟨items, -, -, -, rfl⟩
    · simp [Condition.pieces]
    · rw [Condition.pieces, Condition.pieces]
      rfl
  | contains =>
    rw [leaf] at hfirst hsecond
    split at hfirst
    · next hkind =>
      rw [if_pos hkind] at hsecond
      obtain ⟨-, rfl, rfl⟩ := arrayTest_eq_ok hfirst
      obtain ⟨-, rfl, rfl⟩ := arrayTest_eq_ok hsecond
      exact ⟨by rw [Condition.pieces, Condition.pieces]; rfl, rfl⟩
    · next hkind =>
      rw [if_neg hkind] at hsecond
      obtain ⟨_, -, rfl, rfl⟩ := literalMatch_eq_ok hfirst
      obtain ⟨_, -, rfl, rfl⟩ := literalMatch_eq_ok hsecond
      exact ⟨by rw [Condition.pieces, Condition.pieces]; rfl, rfl⟩
  | startsWith | endsWith =>
    obtain ⟨_, -, rfl, rfl⟩ := literalMatch_eq_ok hfirst
    obtain ⟨_, -, rfl, rfl⟩ := literalMatch_eq_ok hsecond
    exact ⟨by rw [Condition.pieces, Condition.pieces]; rfl, rfl⟩
  | between =>
    unfold leaf at hfirst
    dsimp only at hfirst
    split at hfirst
    · obtain ⟨rfl, rfl⟩ := Prod.mk.inj (Except.ok.inj hfirst)
      obtain ⟨rfl, rfl⟩ := Prod.mk.inj (Except.ok.inj hsecond)
      exact ⟨by rw [Condition.pieces, Condition.pieces]; rfl, rfl⟩
    · cases hfirst
    · cases hfirst
  | isNull =>
    unfold leaf at hfirst
    dsimp only at hfirst
    split at hfirst
    · obtain ⟨rfl, rfl⟩ := Prod.mk.inj (Except.ok.inj hfirst)
      obtain ⟨rfl, rfl⟩ := Prod.mk.inj (Except.ok.inj hsecond)
      exact ⟨by rw [Condition.pieces, Condition.pieces]; rfl, rfl⟩
    · cases hfirst
  | overlaps =>
    obtain ⟨-, rfl, rfl⟩ := arrayTest_eq_ok hfirst
    obtain ⟨-, rfl, rfl⟩ := arrayTest_eq_ok hsecond
    exact ⟨by rw [Condition.pieces, Condition.pieces]; rfl, rfl⟩
  | fullText | phrase | near | withinDistance | withinBounds => cases hfirst

/-! ### Values in a shared form -/

/-- A bound value in the form that the dialects share. -/
inductive Parameter where
  /-- A value as it stands. -/
  | value (json : Json)
  /-- A pattern that was made of a text of the client. -/
  | pattern (text : List Char)
deriving Repr

/-- A pattern as a dialect needs it: where brackets mean something, the opening ones are
escaped. -/
def bracketed (dialect : Dialect) (text : List Char) : List Char :=
  if dialect = .mssql then text.flatMap fun c => if c = '[' then [escapeMark, '['] else [c]
  else text

/-- The value that is bound in a dialect. -/
def Parameter.bind (dialect : Dialect) : Parameter → Json
  | value json => json
  | pattern text => .string (String.ofList (bracketed dialect text))

/-- The pattern that matches what has a text at a place, where brackets mean nothing. -/
def plainPattern (placement : Placement) (text : String) : List Char :=
  (literalPattern .postgres placement text).toList

/-- The values of a leaf in the form that the dialects share: a text that is looked for, other than
among the elements of an array, becomes a pattern, and every other value stays what it is. -/
def leafParameters (kind : Kind) : Operator → Json → List Parameter
  | .contains, .string text =>
    if kind = .array then [.value (.string text)] else [.pattern (plainPattern .within text)]
  | .startsWith, .string text => [.pattern (plainPattern .atStart text)]
  | .endsWith, .string text => [.pattern (plainPattern .atEnd text)]
  | .isIn, .array items | .notIn, .array items | .between, .array items => items.map .value
  | .isNull, _ => []
  | _, operand => [.value operand]

theorem bracketed_append (text more : List Char) :
    bracketed dialect (text ++ more) = bracketed dialect text ++ bracketed dialect more := by
  unfold bracketed
  split <;> simp

/-- Escaping for a dialect is escaping what means something everywhere, and then the brackets. -/
theorem escapePattern_eq_bracketed (text : List Char) :
    escapePattern dialect text = bracketed dialect (escapePattern .postgres text) := by
  -- a bracket is no character that means something everywhere, so it is escaped once
  have hchar : ∀ c, (if isSpecial dialect c then [escapeMark, c] else [c]) =
      bracketed dialect (if isSpecial .postgres c then [escapeMark, c] else [c]) := by
    intro c
    by_cases hdialect : dialect = .mssql
    · subst hdialect
      by_cases hbracket : c = '['
      · subst hbracket
        rfl
      · have hspecial : isSpecial .mssql c = isSpecial .postgres c := by
          simp [isSpecial, hbracket]
        rw [hspecial]
        split <;> simp [bracketed, hbracket, escapeMark]
    · have hspecial : isSpecial dialect c = isSpecial .postgres c := by
        simp [isSpecial, hdialect]
      rw [hspecial, bracketed, if_neg hdialect]
  induction text with
  | nil => unfold bracketed; split <;> rfl
  | cons c text ih =>
    change _ ++ escapePattern dialect text = bracketed dialect (_ ++ escapePattern .postgres text)
    rw [ih, bracketed_append]
    exact congrArg (· ++ _) (hchar c)

theorem literalPattern_eq_bracketed (placement : Placement) (text : String) :
    literalPattern dialect placement text =
      String.ofList (bracketed dialect (plainPattern placement text)) := by
  have hpercent : bracketed dialect ['%'] = ['%'] := by cases dialect <;> rfl
  have hcons : ∀ chars, bracketed dialect ('%' :: chars) = '%' :: bracketed dialect chars := by
    intro chars
    rw [← List.singleton_append, bracketed_append, hpercent, List.singleton_append]
  unfold literalPattern plainPattern literalPattern
  rw [String.toList_ofList, @escapePattern_eq_bracketed dialect]
  cases placement <;> simp [bracketed_append, hpercent, hcons]

/-- **The values of a leaf are those of the shared form**, each as the dialect binds it. -/
theorem leafBindings_eq_map (kind : Kind) (op : Operator) (operand : Json) :
    leafBindings dialect kind op operand =
      (leafParameters kind op operand).map (Parameter.bind dialect) := by
  have hvalues : ∀ items : List Json,
      items = (items.map Parameter.value).map (Parameter.bind dialect) := by
    intro items
    rw [List.map_map]
    exact (List.map_id items).symm
  cases op with
  | isIn | notIn | between =>
    cases operand with
    | array items => exact hvalues items
    | _ => rfl
  | contains =>
    cases operand with
    | string text =>
      simp only [leafBindings, leafParameters, literalPattern_eq_bracketed]
      split <;> rfl
    | _ => rfl
  | startsWith | endsWith =>
    cases operand with
    | string text =>
      simp only [leafBindings, leafParameters, literalPattern_eq_bracketed]
      rfl
    | _ => rfl
  | _ => cases operand <;> rfl

end Criteria.Sql
