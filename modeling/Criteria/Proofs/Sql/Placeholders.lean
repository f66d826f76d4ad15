import Criteria.Proofs.Sql.Leaf

/-!
# Placeholders in SQL text

`placeholders?` scans a text for placeholders. It looks at lexemes, so what stands inside quotes is
never taken for one. The text of a test has the placeholders of its parameters, in the order in
which the test names them, and text without parameters has none.

`Holds` is the form in which texts are put together: a text that is set off from what follows has
the placeholders of certain numbers.
-/

namespace Criteria.Sql

variable (dialect : Dialect)

/-- The placeholder a lexeme is. -/
def Lexeme.placeholder? : Lexeme → Option (List Char)
  | .opening => none
  | .closing => none
  | .token inner => inner.placeholder? dialect

/-- The placeholders of a text from left to right. -/
def placeholders? (text : List Char) : Option (List (List Char)) :=
  (lexemes? dialect text).map (List.filterMap (Lexeme.placeholder? dialect))

/-- How the placeholder with a number is spelled. -/
def spelled (number : Nat) : List Char := (dialect.placeholder.text number).toList

/-- The placeholders of a text are those with these numbers, wherever the text stands, if it is set
off from what follows it. -/
def Holds (text : List Char) (numbers : List Nat) : Prop :=
  ∃ lexemes, Lexes dialect text lexemes ∧
    lexemes.filterMap (Lexeme.placeholder? dialect) = numbers.map (spelled dialect)

/-- Numbered placeholders that are spelled alike have the same number. -/
theorem spelled_injective (hnumbered : dialect.placeholder ≠ .question) :
    Function.Injective (spelled dialect) := by
  -- behind the mark there is the number and nothing else
  have hdigits : ∀ {a b : Nat}, (toString a).toList = (toString b).toList → a = b := by
    intro a b h
    have hrepr : Nat.toDigits 10 a = Nat.toDigits 10 b := by
      rw [← Nat.toList_repr, ← Nat.toList_repr]
      exact h
    rw [← Nat.ofDigitChars_ten_toDigits (n := a), hrepr, Nat.ofDigitChars_ten_toDigits]
  intro a b h
  unfold spelled at h
  cases dialect with
  | postgres =>
    rw [Dialect.placeholder, toList_dollar, toList_dollar] at h
    exact hdigits (List.cons.inj h).2
  | mssql =>
    rw [Dialect.placeholder, toList_named, toList_named] at h
    exact hdigits (List.cons.inj (List.cons.inj h).2).2
  | mysql => exact absurd rfl hnumbered
  | sqlite => exact absurd rfl hnumbered

/-! ### Placeholders of trees -/

/-- The placeholders of trees, those inside groups included. -/
def treePlaceholders (trees : List Tree) : List (List Char) :=
  (flattenAll trees).filterMap (Lexeme.placeholder? dialect)

@[simp] theorem treePlaceholders_append (trees others : List Tree) :
    treePlaceholders dialect (trees ++ others) =
      treePlaceholders dialect trees ++ treePlaceholders dialect others := by
  simp [treePlaceholders]

theorem treePlaceholders_group (parts rest : List Tree) :
    treePlaceholders dialect (.group parts :: rest) =
      treePlaceholders dialect parts ++ treePlaceholders dialect rest := by
  simp [treePlaceholders, List.filterMap_cons, Lexeme.placeholder?]

theorem treePlaceholders_token {token : Token} (h : token.placeholder? dialect = none)
    (rest : List Tree) :
    treePlaceholders dialect (.token token :: rest) = treePlaceholders dialect rest := by
  simp [treePlaceholders, Lexeme.placeholder?, h]

/-- A keyword is no placeholder: the marks of named placeholders are no letters. -/
theorem placeholder?_word {word : List Char} (h : word.all Char.isAlpha = true) :
    (Token.word word).placeholder? dialect = none := by
  cases word with
  | nil => cases dialect <;> rfl
  | cons c chars =>
    rw [List.all_cons, Bool.and_eq_true] at h
    -- the first character would have to be the mark of the dialect
    unfold Token.placeholder?
    split
    · next hmark => cases hmark; exact absurd h.1 (by decide)
    · next hmark => cases hmark; exact absurd h.1 (by decide)
    · next hmark => cases hmark
    · rfl

theorem treePlaceholders_word {word : String} (h : word.toList.all Char.isAlpha = true)
    (rest : List Tree) :
    treePlaceholders dialect (wordTree word :: rest) = treePlaceholders dialect rest :=
  treePlaceholders_token dialect (placeholder?_word dialect h) rest

/-- A sign that is not the mark of placeholders without numbers. -/
theorem treePlaceholders_sign {sign : String} (h : sign.toList ≠ ['?']) (rest : List Tree) :
    treePlaceholders dialect (signTree sign :: rest) = treePlaceholders dialect rest := by
  have hnone : (Token.sign sign.toList).placeholder? dialect = none := by
    unfold Token.placeholder?
    split
    · next hsign => cases hsign
    · next hsign => cases hsign
    · next hsign => exact absurd (Token.sign.inj hsign) h
    · rfl
  exact treePlaceholders_token dialect hnone rest

/-- A column has no placeholders: its segments stand in quotes, so a `$1` among them is a name. -/
theorem treePlaceholders_columnTrees (reference : String) (rest : List Tree) :
    treePlaceholders dialect (columnTrees reference ++ rest) = treePlaceholders dialect rest := by
  have hnone : ∀ token ∈ pathTokens (Text.split '.' reference.toList),
      token.placeholder? dialect = none := by
    intro token htoken
    rcases mem_pathTokens htoken with rfl | ⟨segment, rfl⟩
    · cases dialect <;> rfl
    · cases dialect <;> rfl
  have hcolumn : treePlaceholders dialect (columnTrees reference) = [] := by
    rw [treePlaceholders, columnTrees, flattenAll_map_token, List.filterMap_map,
      List.filterMap_eq_nil_iff]
    exact hnone
  rw [treePlaceholders_append, hcolumn, List.nil_append]

theorem treePlaceholders_param (number : Nat) (rest : List Tree) :
    treePlaceholders dialect (paramTree dialect number :: rest) =
      spelled dialect number :: treePlaceholders dialect rest := by
  simp [treePlaceholders, paramTree, Lexeme.placeholder?, placeholder?_paramToken, spelled]

theorem treePlaceholders_paramTrees (params : List Nat) :
    treePlaceholders dialect (paramTrees dialect params) = params.map (spelled dialect) := by
  induction params with
  | nil => rfl
  | cons number rest ih =>
    cases rest with
    | nil => exact treePlaceholders_param dialect number []
    | cons next rest =>
      have hcomma : ∀ trees, treePlaceholders dialect (.token .comma :: trees) =
          treePlaceholders dialect trees := by
        intro trees
        cases dialect <;> rfl
      rw [paramTrees_cons_cons, treePlaceholders_param, hcomma, ih]
      rfl

/-- **A test has the placeholders of its parameters.** -/
theorem treePlaceholders_test (reference : String) (check : Test) :
    treePlaceholders dialect (check.trees dialect reference) =
      check.params.map (spelled dialect) := by
  have hcolumn := treePlaceholders_columnTrees dialect reference
  have hsign := @treePlaceholders_sign dialect
  have hparam := treePlaceholders_param dialect
  have hword := @treePlaceholders_word dialect
  -- by test: all trees but the parameters drop out, from left to right
  cases check with
  | compare comparison param =>
    have hmark : comparison.sign.toList ≠ ['?'] := by cases comparison <;> decide
    rw [Test.trees, hcolumn, hsign hmark, hparam]
    rfl
  | among positive params =>
    have hin : treePlaceholders dialect [wordTree "IN", .group (paramTrees dialect params)] =
        params.map (spelled dialect) := by
      rw [hword (by decide), treePlaceholders_group, treePlaceholders_paramTrees]
      exact List.append_nil _
    cases positive with
    | true =>
      rw [Test.trees, hcolumn, hin]
      rfl
    | false =>
      rw [Test.trees, hcolumn, hword (by decide), hin]
      rfl
  | like param =>
    rw [Test.trees, hcolumn, hword (by decide), hparam]
    rfl
  | likeAnyCase param =>
    rw [Test.trees]
    split
    · rw [hcolumn, hword (by decide), hparam]
      rfl
    · have hinside := hcolumn []
      rw [List.append_nil] at hinside
      rw [hword (by decide), treePlaceholders_group, hinside, hword (by decide),
        hword (by decide), treePlaceholders_group, hparam]
      rfl
  | likeEscaped param =>
    have hmark : (Token.literal [escapeMark]).placeholder? dialect = none := by
      cases dialect <;> rfl
    rw [Test.trees, hcolumn, hword (by decide), hparam, hword (by decide),
      treePlaceholders_token _ hmark]
    rfl
  | hasAll param =>
    rw [Test.trees, hcolumn, hsign (by decide), hparam]
    rfl
  | overlaps param =>
    rw [Test.trees, hcolumn, hsign (by decide), hparam]
    rfl
  | between low high =>
    rw [Test.trees, hcolumn, hword (by decide), hparam, hword (by decide), hparam]
    rfl
  | isNull positive =>
    cases positive with
    | true =>
      rw [Test.trees, hcolumn, hword (by decide), hword (by decide)]
      rfl
    | false =>
      rw [Test.trees, hcolumn, hword (by decide), hword (by decide), hword (by decide)]
      rfl

/-! ### Placeholders of texts -/

variable {dialect}

theorem placeholders?_of_holds {text : List Char} {numbers : List Nat}
    (h : Holds dialect text numbers) :
    placeholders? dialect text = some (numbers.map (spelled dialect)) := by
  obtain ⟨lexemes, hlexes, hnumbers⟩ := h
  rw [placeholders?, lexemes?_eq_some_iff.2 hlexes, Option.map_some, hnumbers]

/-- A keyword with blanks around it. -/
def IsConnective (connective : String) : Prop :=
  ∃ word, word ≠ [] ∧ word.all Char.isAlpha = true ∧ connective.toList = ' ' :: word ++ [' ']

theorem isConnective_and : IsConnective " AND " := ⟨['A', 'N', 'D'], by simp, by decide, rfl⟩

theorem isConnective_or : IsConnective " OR " := ⟨['O', 'R'], by simp, by decide, rfl⟩

namespace Holds

variable {text others : List Char} {numbers more : List Nat}

theorem test (reference : String) {check : Test} (hsuits : check.suits dialect) :
    Holds dialect (chars dialect (check.pieces dialect reference)) check.params :=
  ⟨_, check.lexes reference hsuits, treePlaceholders_test dialect reference check⟩

theorem constant (value : Bool) :
    Holds dialect (if value then "1=1" else "1=0").toList [] :=
  ⟨_, lexes_constant dialect value, by cases value <;> cases dialect <;> rfl⟩

/-- Texts around a connective have their placeholders in order. -/
theorem connective {connective : String} (hconnective : IsConnective connective)
    (h : Holds dialect text numbers) (hothers : Holds dialect others more) :
    Holds dialect (text ++ (connective.toList ++ others)) (numbers ++ more) := by
  obtain ⟨word, hne, hword, htext⟩ := hconnective
  obtain ⟨lexemes, hlexes, hnumbers⟩ := h
  obtain ⟨rest, hrest, hmore⟩ := hothers
  have hnone : (Token.word word).placeholder? dialect = none := placeholder?_word dialect hword
  rw [htext, ← List.append_assoc]
  refine ⟨_, Lexes.binary hlexes (Lexes.keyword hne hword) hrest, ?_⟩
  simp [Lexeme.placeholder?, hnone, hnumbers, hmore]

theorem enclose (h : Holds dialect text numbers) :
    Holds dialect ('(' :: (text ++ [')'])) numbers := by
  obtain ⟨lexemes, hlexes, hnumbers⟩ := h
  refine ⟨_, hlexes.enclose, ?_⟩
  rw [← hnumbers]
  simp [List.filterMap_cons, Lexeme.placeholder?]

theorem negate (h : Holds dialect text numbers) :
    Holds dialect ("NOT (".toList ++ (text ++ [')'])) numbers := by
  obtain ⟨lexemes, hlexes, hnumbers⟩ := h.enclose
  have hnone : (Token.word ['N', 'O', 'T']).placeholder? dialect = none :=
    placeholder?_word dialect (by decide)
  have hnot : Lexes dialect ['N', 'O', 'T'] [.token (.word ['N', 'O', 'T'])] :=
    Lexes.keyword (by simp) (by decide)
  refine ⟨_, hnot.blank hlexes, ?_⟩
  rw [List.filterMap_append, hnumbers]
  simp [Lexeme.placeholder?, hnone]

end Holds

end Criteria.Sql
