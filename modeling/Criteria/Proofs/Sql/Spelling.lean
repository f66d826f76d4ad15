import Criteria.Proofs.Sql.Precedence
import Criteria.Sql.Pattern

/-!
# How tests are spelled

A test of a column is one operand of the text it stands in: `Test.trees` gives its trees, and
`Test.lexes` says that the text of the test is read as them. The column comes as the segments of its
reference, each in quotes of its own, and the parameters come as placeholders.

One spelling belongs to a single dialect. The signs of the array tests are words elsewhere, so what
is said about a test presumes that it suits the dialect, which every test does that a leaf becomes.
-/

namespace Criteria.Sql

variable (dialect : Dialect)

/-! ### Pieces as characters -/

/-- The characters of pieces. -/
def chars (pieces : List Piece) : List Char := (spell dialect pieces).toList

@[simp] theorem chars_nil : chars dialect [] = [] := rfl

@[simp] theorem chars_cons (piece : Piece) (pieces : List Piece) :
    chars dialect (piece :: pieces) = (piece.text dialect).toList ++ chars dialect pieces := by
  simp [chars, spell, String.toList_join]

@[simp] theorem chars_append (pieces others : List Piece) :
    chars dialect (pieces ++ others) = chars dialect pieces ++ chars dialect others := by
  simp [chars, spell, String.toList_join]

@[simp] theorem text_fixed (sql : String) : (Piece.fixed sql).text dialect = sql := rfl

@[simp] theorem text_column (reference : String) :
    (Piece.column reference).text dialect = dialect.quote reference := rfl

@[simp] theorem text_param (number : Nat) :
    (Piece.param number).text dialect = dialect.placeholder.text number := rfl

/-! ### Words and signs of tests -/

variable {dialect}

/-- Two texts with a text between them that stands by itself. -/
theorem Lexes.binary {text sign others : List Char} {lexemes own rest : List Lexeme}
    (h : Lexes dialect text lexemes) (hsign : Lexes dialect sign own)
    (hothers : Lexes dialect others rest) :
    Lexes dialect (text ++ (' ' :: sign ++ [' ']) ++ others) (lexemes ++ own ++ rest) := by
  have hboth := h.blank (hsign.blank hothers)
  simpa using hboth

theorem Lexes.comparison (comparison : Comparison) :
    Lexes dialect comparison.sign.toList [.token (.sign comparison.sign.toList)] := by
  cases comparison <;> cases dialect <;> exact ⟨[], .sign _, _, rfl, rfl, rfl⟩

variable (dialect)

/-! ### The trees of a test -/

/-- A word by itself. -/
def wordTree (word : String) : Tree := .token (.word word.toList)

/-- A sign by itself. -/
def signTree (sign : String) : Tree := .token (.sign sign.toList)

/-- The placeholder of a parameter. -/
def paramTree (number : Nat) : Tree := .token (paramToken dialect number)

/-- The placeholders of parameters with commas between them. -/
def paramTrees : List Nat → List Tree
  | [] => []
  | [number] => [paramTree dialect number]
  | number :: rest => paramTree dialect number :: .token .comma :: paramTrees rest

theorem paramTrees_cons_cons (number next : Nat) (rest : List Nat) :
    paramTrees dialect (number :: next :: rest) =
      paramTree dialect number :: .token .comma :: paramTrees dialect (next :: rest) := rfl

/-- A column. -/
def columnTrees (reference : String) : List Tree :=
  (pathTokens (Text.split '.' reference.toList)).map .token

/-- The trees of a test of a column. -/
def Test.trees (reference : String) : Test → List Tree
  | compare comparison param =>
    columnTrees reference ++ [signTree comparison.sign, paramTree dialect param]
  | among true params =>
    columnTrees reference ++ [wordTree "IN", .group (paramTrees dialect params)]
  | among false params =>
    columnTrees reference ++ [wordTree "NOT", wordTree "IN", .group (paramTrees dialect params)]
  | like param => columnTrees reference ++ [wordTree "LIKE", paramTree dialect param]
  | likeAnyCase param =>
    if dialect = .postgres then
      columnTrees reference ++ [wordTree "ILIKE", paramTree dialect param]
    else
      [wordTree "LOWER", .group (columnTrees reference), wordTree "LIKE", wordTree "LOWER",
        .group [paramTree dialect param]]
  | likeEscaped param =>
    columnTrees reference ++
      [wordTree "LIKE", paramTree dialect param, wordTree "ESCAPE", .token (.literal [escapeMark])]
  | hasAll param => columnTrees reference ++ [signTree "@>", paramTree dialect param]
  | overlaps param => columnTrees reference ++ [signTree "&&", paramTree dialect param]
  | between low high =>
    columnTrees reference ++
      [wordTree "BETWEEN", paramTree dialect low, wordTree "AND", paramTree dialect high]
  | isNull true => columnTrees reference ++ [wordTree "IS", wordTree "NULL"]
  | isNull false => columnTrees reference ++ [wordTree "IS", wordTree "NOT", wordTree "NULL"]

/-- Whether a dialect has a test: the array tests belong to one dialect. -/
def Test.suits : Test → Prop
  | hasAll _ => dialect = .postgres
  | overlaps _ => dialect = .postgres
  | _ => True

/-! ### Texts and trees of tests -/

theorem lexes_column (reference : String) :
    Lexes dialect (dialect.quote reference).toList (flattenAll (columnTrees reference)) := by
  rw [columnTrees, flattenAll_map_token]
  exact Lexes.column dialect reference

theorem lexes_param (number : Nat) :
    Lexes dialect (dialect.placeholder.text number).toList
      (flattenAll [paramTree dialect number]) := by
  simpa [paramTree] using Lexes.param dialect number

theorem lexes_params (params : List Nat) :
    Lexes dialect (chars dialect (paramPieces params))
      (flattenAll (paramTrees dialect params)) := by
  induction params with
  | nil => exact Lexes.nil
  | cons number rest ih =>
    cases rest with
    | nil => simpa [paramPieces, paramTrees] using lexes_param dialect number
    | cons next rest =>
      have hblank : Lexes dialect (' ' :: chars dialect (paramPieces (next :: rest)))
          (flattenAll (paramTrees dialect (next :: rest))) := Lexes.nil.blank ih
      have hboth := (lexes_param dialect number).separate .comma hblank
      simpa [paramPieces, paramTrees] using hboth

variable {dialect}

/-- **A test is read as its trees.** -/
theorem Test.lexes (reference : String) {check : Test} (hsuits : check.suits dialect) :
    Lexes dialect (chars dialect (check.pieces dialect reference))
      (flattenAll (check.trees dialect reference)) := by
  have hcolumn := lexes_column dialect reference
  have hword : ∀ word : String, word.toList ≠ [] → word.toList.all Char.isAlpha = true →
      Lexes dialect word.toList [.token (.word word.toList)] := fun _ => Lexes.keyword
  cases check with
  | compare comparison param =>
    have htext := Lexes.binary hcolumn (Lexes.comparison comparison) (lexes_param dialect param)
    simpa [pieces, trees, signTree] using htext
  | among positive params =>
    have hparams := (lexes_params dialect params).enclose
    have hin := (hword "IN" (by decide) (by decide)).blank hparams
    cases positive with
    | true => simpa [pieces, trees, wordTree] using hcolumn.blank hin
    | false =>
      have hnot := (hword "NOT" (by decide) (by decide)).blank hin
      simpa [pieces, trees, wordTree] using hcolumn.blank hnot
  | like param =>
    have htext := Lexes.binary hcolumn
      (hword "LIKE" (by decide) (by decide)) (lexes_param dialect param)
    simpa [pieces, trees, wordTree] using htext
  | likeAnyCase param =>
    -- the dialects that have no test of their own bring both sides to lower case
    by_cases hdialect : dialect = .postgres
    · have htext := Lexes.binary hcolumn
        (hword "ILIKE" (by decide) (by decide)) (lexes_param dialect param)
      simpa [pieces, trees, wordTree, hdialect] using htext
    · have hlower := hword "LOWER" (by decide) (by decide)
      have htext := Lexes.binary (hlower.call hcolumn)
        (hword "LIKE" (by decide) (by decide)) (hlower.call (lexes_param dialect param))
      simpa [pieces, trees, wordTree, hdialect] using htext
  | likeEscaped param =>
    have hmark : Lexes dialect ['\'', escapeMark, '\''] [.token (.literal [escapeMark])] := by
      cases dialect <;> exact ⟨[], .literalEnd _, _, rfl, rfl, rfl⟩
    have hescape := Lexes.binary (lexes_param dialect param)
      (hword "ESCAPE" (by decide) (by decide)) hmark
    have htext := Lexes.binary hcolumn
      (hword "LIKE" (by decide) (by decide)) hescape
    simpa [pieces, trees, wordTree, escapeMark] using htext
  | hasAll param =>
    -- in a dialect whose parameters have names the sign would start with a character of words
    obtain rfl : dialect = .postgres := hsuits
    have hsign : Lexes .postgres ['@', '>'] [.token (.sign ['@', '>'])] :=
      ⟨[], .sign _, _, rfl, rfl, rfl⟩
    simpa [pieces, trees, signTree] using Lexes.binary hcolumn hsign (lexes_param _ param)
  | overlaps param =>
    obtain rfl : dialect = .postgres := hsuits
    have hsign : Lexes .postgres ['&', '&'] [.token (.sign ['&', '&'])] :=
      ⟨[], .sign _, _, rfl, rfl, rfl⟩
    simpa [pieces, trees, signTree] using Lexes.binary hcolumn hsign (lexes_param _ param)
  | between low high =>
    -- from the inside out: the bounds around `AND`, then the column in front of them
    have hrange := Lexes.binary (lexes_param dialect low)
      (hword "AND" (by decide) (by decide)) (lexes_param dialect high)
    have htext := Lexes.binary hcolumn
      (hword "BETWEEN" (by decide) (by decide)) hrange
    simpa [pieces, trees, wordTree] using htext
  | isNull positive =>
    have hnull := hword "NULL" (by decide) (by decide)
    cases positive with
    | true =>
      have htext := Lexes.binary hcolumn
        (hword "IS" (by decide) (by decide)) hnull
      simpa [pieces, trees, wordTree] using htext
    | false =>
      have hnot := (hword "NOT" (by decide) (by decide)).blank hnull
      have htext := Lexes.binary hcolumn
        (hword "IS" (by decide) (by decide)) hnot
      simpa [pieces, trees, wordTree] using htext

/-! ### Tests as operands -/

theorem advance_none (pending : List Pending) : advance pending none = some (.part, pending) := by
  -- only a keyword ends what is pending
  cases pending with
  | nil => rfl
  | cons last pending => cases last <;> rfl

theorem isOperand_cons_of_keyword?_eq_none {tree : Tree} (htree : tree.keyword? = none)
    (pending : List Pending) (rest : List Tree) :
    isOperand pending (tree :: rest) = isOperand pending rest := by
  rw [isOperand, htree, advance_none]

theorem keyword?_of_mem_pathTokens {segments : List (List Char)} :
    ∀ token ∈ pathTokens segments, (Tree.token token).keyword? = none := by
  intro token htoken
  -- a segment is no keyword, whatever it spells, since it stands in quotes
  rcases mem_pathTokens htoken with rfl | ⟨segment, rfl⟩
  · rfl
  · rfl

/-- A column holds no keyword. -/
theorem isOperand_column (reference : String) (pending : List Pending) (rest : List Tree) :
    isOperand pending (columnTrees reference ++ rest) = isOperand pending rest := by
  have htokens : ∀ tokens : List Token, (∀ token ∈ tokens, (Tree.token token).keyword? = none) →
      isOperand pending (tokens.map .token ++ rest) = isOperand pending rest := by
    intro tokens h
    induction tokens with
    | nil => rfl
    | cons token tokens ih =>
      -- nothing is opened or ended by a token that is no keyword
      rw [List.map_cons, List.cons_append,
        isOperand_cons_of_keyword?_eq_none (h token List.mem_cons_self),
        ih fun t ht => h t (List.mem_cons_of_mem _ ht)]
  exact htokens _ keyword?_of_mem_pathTokens

/-- A column starts with the quotes of its first segment. -/
theorem columnTrees_eq_cons (reference : String) :
    ∃ segment rest, columnTrees reference = .token (.quoted segment) :: rest := by
  obtain ⟨segment, segments, h⟩ :=
    List.exists_cons_of_ne_nil (Text.split_ne_nil '.' reference.toList)
  cases segments with
  | nil => exact ⟨segment, [], by rw [columnTrees, h]; rfl⟩
  | cons next segments =>
    exact ⟨segment, .token .dot :: (pathTokens (next :: segments)).map .token,
      by rw [columnTrees, h]; rfl⟩

variable (dialect)

theorem keyword?_paramTree (number : Nat) : (paramTree dialect number).keyword? = none := by
  cases dialect with
  | postgres =>
    rw [paramTree, paramToken, if_neg (by decide), Dialect.placeholder, toList_dollar]
    rfl
  | mssql =>
    rw [paramTree, paramToken, if_neg (by decide), Dialect.placeholder, toList_named]
    rfl
  | mysql => rfl
  | sqlite => rfl

/-- A test is one operand of the text it stands in. -/
theorem Test.isOperand (reference : String) (check : Test) :
    Sql.isOperand [] (check.trees dialect reference) = true := by
  have hparam : ∀ number pending rest, Sql.isOperand pending (paramTree dialect number :: rest) =
      Sql.isOperand pending rest :=
    fun number => isOperand_cons_of_keyword?_eq_none (keyword?_paramTree dialect number)
  cases check with
  | compare comparison param => rw [trees, isOperand_column]; exact hparam param [] []
  | among positive params => cases positive <;> rw [trees, isOperand_column] <;> rfl
  | like param => rw [trees, isOperand_column]; exact hparam param [] []
  | likeAnyCase param =>
    rw [trees]
    split
    · rw [isOperand_column]
      exact hparam param [] []
    · rfl
  | likeEscaped param => rw [trees, isOperand_column]; exact hparam param [] _
  | hasAll param => rw [trees, isOperand_column]; exact hparam param [] []
  | overlaps param => rw [trees, isOperand_column]; exact hparam param [] []
  | between low high =>
    -- the range is pending between its bounds, and its `AND` ends it
    rw [trees, isOperand_column]
    exact (hparam low [.between] _).trans (hparam high [] [])
  | isNull positive => cases positive <;> rw [trees, isOperand_column] <;> rfl

/-- The first token of a test is no keyword. -/
theorem Test.trees_eq_cons (reference : String) (check : Test) :
    ∃ token rest, check.trees dialect reference = .token token :: rest ∧
      (Tree.token token).keyword? = none := by
  obtain ⟨segment, rest, hcolumn⟩ := columnTrees_eq_cons reference
  -- all tests start with their column, but for the one that brings it to lower case
  have hcolumn : ∀ others, ∃ token rest, columnTrees reference ++ others = .token token :: rest ∧
      (Tree.token token).keyword? = none :=
    fun others => ⟨.quoted segment, rest ++ others, by rw [hcolumn, List.cons_append], rfl⟩
  cases check with
  | among positive params => cases positive <;> exact hcolumn _
  | isNull positive => cases positive <;> exact hcolumn _
  | likeAnyCase param =>
    rw [trees]
    split
    · exact hcolumn _
    · exact ⟨_, _, rfl, rfl⟩
  | _ => exact hcolumn _

/-- The trees of a constant. -/
def constantTrees (value : Bool) : List Tree :=
  [wordTree "1", signTree "=", wordTree (if value then "1" else "0")]

theorem lexes_constant (value : Bool) :
    Lexes dialect (if value then "1=1" else "1=0").toList (flattenAll (constantTrees value)) := by
  cases value <;> cases dialect <;> exact ⟨_, .word _, _, rfl, rfl, rfl⟩

end Criteria.Sql
