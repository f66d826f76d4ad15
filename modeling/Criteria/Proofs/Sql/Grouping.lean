import Criteria.Proofs.Sql.Lexeme

/-!
# Parentheses

The first thing a reader of SQL does with the lexemes is to match the parentheses. What is left is a
list of trees: tokens, and groups of trees that stood between parentheses.

* `group?` — the trees of lexemes, `none` if the parentheses do not match;
* `flattenAll` — the lexemes of trees, with the parentheses written out again;
* `group?_eq_some_iff` — the two are inverse to each other.

Lexemes therefore determine their trees, and to know the trees of a text it is enough to give some
whose lexemes are those of the text.
-/

namespace Criteria.Sql

/-- A token, or what stands between two parentheses that belong together. -/
inductive Tree where
  | token (token : Token)
  | group (parts : List Tree)

/-! ### Trees as lexemes -/

mutual

/-- The lexemes of a tree. -/
def Tree.flatten : Tree → List Lexeme
  | .token token => [.token token]
  | .group parts => .opening :: (flattenAll parts ++ [.closing])

/-- The lexemes of trees in turn. -/
def flattenAll : List Tree → List Lexeme
  | [] => []
  | tree :: trees => tree.flatten ++ flattenAll trees

end

@[simp] theorem flattenAll_nil : flattenAll [] = [] := rfl

@[simp] theorem flattenAll_cons (tree : Tree) (trees : List Tree) :
    flattenAll (tree :: trees) = tree.flatten ++ flattenAll trees := by rw [flattenAll]

@[simp] theorem Tree.flatten_token (token : Token) :
    (Tree.token token).flatten = [.token token] := by rw [flatten]

@[simp] theorem Tree.flatten_group (parts : List Tree) :
    (Tree.group parts).flatten = .opening :: (flattenAll parts ++ [.closing]) := by rw [flatten]

@[simp] theorem flattenAll_append (trees others : List Tree) :
    flattenAll (trees ++ others) = flattenAll trees ++ flattenAll others := by
  induction trees with
  | nil => rfl
  | cons tree trees ih => simp [ih]

@[simp] theorem flattenAll_map_token (tokens : List Token) :
    flattenAll (tokens.map .token) = tokens.map .token := by
  induction tokens with
  | nil => rfl
  | cons token tokens ih => simp [ih]

/-! ### Lexemes as trees -/

/-- Groups lexemes. `outer` are the trees read in front of each parenthesis that is still open, the
innermost first, and `read` are those behind the last one. -/
def nest (outer : List (List Tree)) (read : List Tree) : List Lexeme → Option (List Tree)
  | [] =>
    match outer with
    | [] => some read
    | _ :: _ => none
  | .opening :: rest => nest (read :: outer) [] rest
  | .closing :: rest =>
    match outer with
    | [] => none
    | before :: outer => nest outer (before ++ [.group read]) rest
  | .token token :: rest => nest outer (read ++ [.token token]) rest

/-- The trees of lexemes. -/
def group? (lexemes : List Lexeme) : Option (List Tree) := nest [] [] lexemes

/-! ### The two are inverse to each other -/

mutual

theorem nest_flatten (outer : List (List Tree)) (read : List Tree) (rest : List Lexeme) :
    ∀ tree : Tree, nest outer read (tree.flatten ++ rest) = nest outer (read ++ [tree]) rest
  | .token token => by simp [nest]
  | .group parts => by
    -- the parts are read behind an open parenthesis, with `read` waiting in front of it
    have hparts := nest_flattenAll (read :: outer) [] (.closing :: rest) parts
    simp only [Tree.flatten_group, List.cons_append, List.append_assoc, nest, List.nil_append]
      at hparts ⊢
    exact hparts

/-- Trees that are written out are read back, wherever they stand. -/
theorem nest_flattenAll (outer : List (List Tree)) (read : List Tree) (rest : List Lexeme) :
    ∀ trees : List Tree,
      nest outer read (flattenAll trees ++ rest) = nest outer (read ++ trees) rest
  | [] => by simp
  | tree :: trees => by
    rw [flattenAll_cons, List.append_assoc, nest_flatten outer read _ tree,
      nest_flattenAll outer (read ++ [tree]) rest trees, List.append_assoc, List.singleton_append]

end

/-- The lexemes of what was read, with the parentheses that are still open. -/
def flattenOpen : List (List Tree) → List Tree → List Lexeme
  | [], read => flattenAll read
  | before :: outer, read => flattenOpen outer before ++ .opening :: flattenAll read

theorem flattenOpen_append (outer : List (List Tree)) (read trees : List Tree) :
    flattenOpen outer (read ++ trees) = flattenOpen outer read ++ flattenAll trees := by
  cases outer with
  | nil => simp [flattenOpen]
  | cons before outer => simp [flattenOpen]

/-- Nothing is lost on the way: the trees hold what was read before and what was still to come. -/
theorem flattenAll_of_nest {lexemes : List Lexeme} :
    ∀ {outer : List (List Tree)} {read trees : List Tree}, nest outer read lexemes = some trees →
      flattenAll trees = flattenOpen outer read ++ lexemes := by
  induction lexemes with
  | nil =>
    intro outer read trees h
    cases outer with
    | nil =>
      obtain rfl : read = trees := by simpa [nest] using h
      simp [flattenOpen]
    | cons before outer => simp [nest] at h
  | cons lexeme rest ih =>
    intro outer read trees h
    cases lexeme with
    | opening =>
      rw [nest] at h
      simpa [flattenOpen] using ih h
    | closing =>
      cases outer with
      | nil => simp [nest] at h
      | cons before outer =>
        -- what was read since the parenthesis becomes a group of what stood in front of it
        rw [nest] at h
        rw [ih h, flattenOpen_append]
        simp [flattenOpen]
    | token token =>
      rw [nest] at h
      rw [ih h, flattenOpen_append]
      simp

/-- **Lexemes determine their trees.** -/
theorem group?_eq_some_iff {lexemes : List Lexeme} {trees : List Tree} :
    group? lexemes = some trees ↔ flattenAll trees = lexemes := by
  constructor
  · intro h
    exact flattenAll_of_nest h
  · rintro rfl
    have h := nest_flattenAll [] [] [] trees
    rw [List.append_nil] at h
    rw [group?, h, List.nil_append, nest]

end Criteria.Sql
