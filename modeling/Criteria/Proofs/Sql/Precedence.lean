import Criteria.Proofs.Sql.Expression
import Criteria.Proofs.Sql.Grouping

/-!
# Reading SQL with the usual precedence

Parentheses bind most tightly, then `NOT`, then `AND`, then `OR`. The `AND` of a `BETWEEN` belongs
to it, and so does everything between `CASE` and `END`. What is left between the connectives are
operands: a single group is read in turn, unless it is a query, and any other operand is an atom.

What an atom may be is a parameter of the reader, `leaf`, which says how the trees of an operand are
read. The reader asks it about whole operands only.

* `alternatives?` — what trees say, as alternatives of factors;
* `expression?` — what a text says, as an expression;
* `Reads` — the alternatives of a text wherever it stands, provided that it is set off;
* `Reads.or`, `Reads.and`, `Reads.enclose`, `Reads.negate` — how the reading of a text follows from
  the readings of its parts.

The parts that `AND` connects are not read as the factors of a conjunction if they have several
alternatives: the last one on its left and the first one on its right run together. `Reads.and` says
so with `glue`, and it is the only place where putting texts together is not harmless.
-/

namespace Criteria.Sql

/-! ### Keywords -/

/-- A word that structures an expression. -/
inductive Keyword where
  | and
  | or
  | not
  | between
  | case
  | finish
  | query
deriving DecidableEq, Repr

/-- The keyword a word in lower case is. -/
def keywordOf? : List Char → Option Keyword
  | ['a', 'n', 'd'] => some .and
  | ['o', 'r'] => some .or
  | ['n', 'o', 't'] => some .not
  | ['b', 'e', 't', 'w', 'e', 'e', 'n'] => some .between
  | ['c', 'a', 's', 'e'] => some .case
  | ['e', 'n', 'd'] => some .finish
  | ['s', 'e', 'l', 'e', 'c', 't'] => some .query
  | ['v', 'a', 'l', 'u', 'e', 's'] => some .query
  | ['w', 'i', 't', 'h'] => some .query
  | _ => none

/-- The keyword a tree is. Keywords are written without quotes and in any letter case. -/
def Tree.keyword? : Tree → Option Keyword
  | .token (.word text) => keywordOf? (text.map Char.toLower)
  | _ => none

/-- Whether what stands between parentheses is a query and not an expression. -/
def isQuery : List Tree → Bool
  | tree :: _ => tree.keyword? = some .query
  | [] => false

/-! ### Connectives -/

/-- A construct that claims what follows it until it ends. -/
inductive Pending where
  | between
  | case
deriving DecidableEq, Repr

/-- What a tree is for the expression it stands in. -/
inductive Role where
  | and
  | or
  | part
deriving DecidableEq, Repr

/-- The role of a keyword, and the constructs pending behind it, the innermost first. -/
def advance : List Pending → Option Keyword → Option (Role × List Pending)
  | [], some .and => some (.and, [])
  | [], some .or => some (.or, [])
  -- the bounds of a range are operands of `BETWEEN`
  | .between :: pending, some .and => some (.part, pending)
  | .between :: _, some .or => none
  | .case :: pending, some .finish => some (.part, pending)
  | _, some .finish => none
  | pending, some .between => some (.part, .between :: pending)
  | pending, some .case => some (.part, .case :: pending)
  | pending, _ => some (.part, pending)

/-- A tree in its role, with what it says if it is a group. -/
structure Mark (α : Type) where
  /-- The role of the tree. -/
  role : Role
  /-- The tree itself. -/
  tree : Tree
  /-- What the inside of a group says. -/
  inside : Option (Expr α)

variable {α : Type} (leaf : List Tree → Option α)

/-! ### The reader -/

/-- What a run of trees without connectives says. -/
def operand? : List (Mark α) → Option (Expr α)
  | [] => none
  | [⟨_, .group parts, inside⟩] =>
    if isQuery parts then (leaf [.group parts]).map .atom else inside
  | marks => (leaf (marks.map Mark.tree)).map .atom

/-- What a factor says: an operand behind any number of negations. -/
def factor? : List (Mark α) → Option (Expr α)
  | [] => none
  | mark :: rest =>
    if mark.tree.keyword? = some .not then (factor? rest).map .not
    else operand? leaf (mark :: rest)

/-- The factors of an alternative. -/
def factors? (marks : List (Mark α)) : Option (List (Expr α)) :=
  (marks.splitOnP (·.role = .and)).mapM (factor? leaf)

/-- The alternatives of an expression. -/
def sum? (marks : List (Mark α)) : Option (List (List (Expr α))) :=
  (marks.splitOnP (·.role = .or)).mapM (factors? leaf)

mutual

/-- What the inside of a group says. -/
def Tree.inside? : Tree → Option (Expr α)
  | .token _ => none
  | .group parts =>
    if isQuery parts then none
    else ((marks? [] parts).bind (sum? leaf)).map Expr.ofAlternatives

/-- Trees in their roles, `none` if a construct has no end. -/
def marks? (pending : List Pending) : List Tree → Option (List (Mark α))
  | [] => if pending = [] then some [] else none
  | tree :: rest =>
    (advance pending tree.keyword?).bind fun (role, pending) =>
      (marks? pending rest).map (⟨role, tree, tree.inside?⟩ :: ·)

end

/-- What trees say, as alternatives of factors. A query says nothing that is true or false. -/
def alternatives? (trees : List Tree) : Option (List (List (Expr α))) :=
  if isQuery trees then none else (marks? leaf [] trees).bind (sum? leaf)

/-- What a text says, as alternatives of factors. -/
def reading? (dialect : Dialect) (text : List Char) : Option (List (List (Expr α))) :=
  (lexemes? dialect text).bind fun lexemes => (group? lexemes).bind (alternatives? leaf)

/-- What a text says, as an expression. -/
def expression? (dialect : Dialect) (text : List Char) : Option (Expr α) :=
  (reading? leaf dialect text).map Expr.ofAlternatives

@[simp] theorem marks?_nil : marks? leaf [] [] = some [] := by simp [marks?]

theorem marks?_cons {pending next : List Pending} {tree : Tree} {role : Role}
    (h : advance pending tree.keyword? = some (role, next)) (rest : List Tree) :
    marks? leaf pending (tree :: rest) =
      (marks? leaf next rest).map (⟨role, tree, tree.inside? leaf⟩ :: ·) := by
  rw [marks?, h]
  rfl

theorem Tree.inside?_group (parts : List Tree) :
    Tree.inside? leaf (.group parts) = (alternatives? leaf parts).map Expr.ofAlternatives := by
  rw [Tree.inside?, alternatives?]
  split <;> rfl

/-! ### Trees next to each other -/

variable {leaf}

/-- When nothing is pending at the end of some trees, what follows is marked as if it stood
alone. -/
theorem marks?_append {trees : List Tree} (others : List Tree) :
    ∀ {pending : List Pending} {marks : List (Mark α)}, marks? leaf pending trees = some marks →
      marks? leaf pending (trees ++ others) = (marks? leaf [] others).map (marks ++ ·) := by
  -- in between something may be pending, so the induction is over all of it
  induction trees with
  | nil =>
    intro pending marks h
    rw [marks?] at h
    split at h
    · next hpending =>
      obtain rfl : [] = marks := Option.some.inj h
      rw [hpending, List.nil_append]
      simp
    · exact absurd h (by simp)
  | cons tree trees ih =>
    intro pending marks h
    rw [marks?] at h
    obtain ⟨⟨role, next⟩, hrole, h⟩ := Option.bind_eq_some_iff.1 h
    obtain ⟨rest, hrest, rfl⟩ := Option.map_eq_some_iff.1 h
    rw [List.cons_append, marks?_cons leaf hrole, ih hrest, Option.map_map]
    rfl

/-- A connective between trees takes its role when nothing is pending in front of it. -/
theorem marks?_connective {trees others : List Tree} {marks rest : List (Mark α)}
    (h : marks? leaf [] trees = some marks) (hothers : marks? leaf [] others = some rest)
    {tree : Tree} {role : Role} (htree : advance [] tree.keyword? = some (role, [])) :
    marks? leaf [] (trees ++ tree :: others) =
      some (marks ++ ⟨role, tree, tree.inside? leaf⟩ :: rest) := by
  rw [marks?_append (tree :: others) h, marks?_cons leaf htree, hothers, Option.map_some,
    Option.map_some]

/-- What has alternatives is not empty, is no query and has marks. -/
theorem alternatives?_eq_some {trees : List Tree} {alternatives : List (List (Expr α))} :
    alternatives? leaf trees = some alternatives ↔ trees ≠ [] ∧ isQuery trees = false ∧
      ∃ marks, marks? leaf [] trees = some marks ∧ sum? leaf marks = some alternatives := by
  have hnil : sum? leaf [] = none := rfl
  rw [alternatives?]
  constructor
  · intro h
    split at h
    · exact absurd h (by simp)
    · next hquery =>
      obtain ⟨marks, hmarks, hsum⟩ := Option.bind_eq_some_iff.1 h
      refine ⟨?_, by simpa using hquery, marks, hmarks, hsum⟩
      rintro rfl
      rw [marks?_nil] at hmarks
      obtain rfl : [] = marks := Option.some.inj hmarks
      exact absurd (hnil.symm.trans hsum) (by simp)
  · rintro ⟨-, hquery, marks, hmarks, hsum⟩
    rw [if_neg (by simp [hquery]), hmarks, Option.bind_some, hsum]

theorem isQuery_append {trees : List Tree} (h : trees ≠ []) (others : List Tree) :
    isQuery (trees ++ others) = isQuery trees := by
  cases trees with
  | nil => exact absurd rfl h
  | cons tree trees => rfl

section Connectives

variable {trees others : List Tree} {first second : List (List (Expr α))} {tree : Tree}

/-- Around a connective both sides are marked as if they stood alone, so it is enough to know what
their marks say together. -/
theorem alternatives?_connective {role : Role} {whole : List (List (Expr α))}
    (h : alternatives? leaf trees = some first) (hothers : alternatives? leaf others = some second)
    (htree : advance [] tree.keyword? = some (role, []))
    (hwhole : ∀ (marks rest : List (Mark α)) (mark : Mark α), sum? leaf marks = some first →
      sum? leaf rest = some second → mark.role = role →
        sum? leaf (marks ++ mark :: rest) = some whole) :
    alternatives? leaf (trees ++ tree :: others) = some whole := by
  obtain ⟨hne, hquery, marks, hmarks, hsum⟩ := alternatives?_eq_some.1 h
  obtain ⟨-, -, rest, hrest, hothers⟩ := alternatives?_eq_some.1 hothers
  have hquery' : isQuery (trees ++ tree :: others) = false := (isQuery_append hne _).trans hquery
  exact alternatives?_eq_some.2 ⟨by simp [hne], hquery', _, marks?_connective hmarks hrest htree,
    hwhole marks rest _ hsum hothers rfl⟩

/-- `OR` puts alternatives next to each other. -/
theorem alternatives?_or (h : alternatives? leaf trees = some first)
    (hothers : alternatives? leaf others = some second) (htree : tree.keyword? = some .or) :
    alternatives? leaf (trees ++ tree :: others) = some (first ++ second) := by
  have hrole : advance [] tree.keyword? = some (.or, []) := by rw [htree, advance]
  refine alternatives?_connective h hothers hrole fun marks rest mark hsum hothers hmark => ?_
  unfold sum? at hsum hothers ⊢
  rw [List.splitOnP_append_cons _ _ (by simp [hmark]), List.mapM_append, hsum, hothers]
  rfl

/-- Factors around an `AND` are the factors of both sides. -/
theorem factors?_and {last following : List (Mark α)} {factors more : List (Expr α)}
    (h : factors? leaf last = some factors) (hfollowing : factors? leaf following = some more)
    {mark : Mark α} (hmark : mark.role = .and) :
    factors? leaf (last ++ mark :: following) = some (factors ++ more) := by
  unfold factors? at h hfollowing ⊢
  rw [List.splitOnP_append_cons _ _ (by simp [hmark]), List.mapM_append, h, hfollowing]
  rfl

/-- **`AND` glues.** The last alternative in front of it and the first one behind it become one. -/
theorem alternatives?_and (h : alternatives? leaf trees = some first)
    (hothers : alternatives? leaf others = some second) (htree : tree.keyword? = some .and) :
    alternatives? leaf (trees ++ tree :: others) = some (glue first second) := by
  have hrole : advance [] tree.keyword? = some (.and, []) := by rw [htree, advance]
  refine alternatives?_connective h hothers hrole fun marks rest mark hsum hothers hmark => ?_
  unfold sum? at hsum hothers ⊢
  -- `AND` is no separator of alternatives, so it joins the first ones behind it
  obtain ⟨head, tail, hsplit⟩ := List.exists_cons_of_ne_nil
    (List.splitOnP_ne_nil (fun mark : Mark α => decide (mark.role = .or)) rest)
  rw [splitOnP_append, List.splitOnP_cons_eq_if_modifyHead, if_neg (by simp [hmark]), hsplit,
    List.modifyHead_cons]
  rw [hsplit] at hothers
  exact mapM_glue (fun hlast hfirst => factors?_and hlast hfirst hmark)
    (List.splitOnP_ne_nil _ marks) hsum hothers

end Connectives

/-! ### Operands -/

/-- Whether all trees are parts of one operand. -/
def isOperand (pending : List Pending) : List Tree → Bool
  | [] => pending = []
  | tree :: rest =>
    match advance pending tree.keyword? with
    | some (.part, next) => isOperand next rest
    | _ => false

theorem marks?_of_isOperand {trees : List Tree} :
    ∀ {pending : List Pending}, isOperand pending trees = true →
      marks? leaf pending trees =
        some (trees.map fun tree => ⟨.part, tree, tree.inside? leaf⟩) := by
  induction trees with
  | nil =>
    intro pending h
    obtain rfl : pending = [] := by simpa [isOperand] using h
    exact marks?_nil leaf
  | cons tree trees ih =>
    intro pending h
    unfold isOperand at h
    split at h
    · next next hadvance => rw [marks?_cons leaf hadvance, ih h, Option.map_some, List.map_cons]
    · exact absurd h (by simp)

/-- Marks without connectives are one factor. -/
theorem sum?_of_parts {marks : List (Mark α)} (h : ∀ mark ∈ marks, mark.role = .part) :
    sum? leaf marks = (factor? leaf marks).map fun factor => [[factor]] := by
  have hor : marks.splitOnP (fun mark => decide (mark.role = .or)) = [marks] :=
    List.splitOnP_eq_singleton fun mark hmark => by simp [h mark hmark]
  have hand : marks.splitOnP (fun mark => decide (mark.role = .and)) = [marks] :=
    List.splitOnP_eq_singleton fun mark hmark => by simp [h mark hmark]
  rw [sum?, hor, List.mapM_cons, factors?, hand, List.mapM_cons]
  cases factor? leaf marks <;> rfl

theorem alternatives?_of_isOperand {trees : List Tree} (hquery : isQuery trees = false)
    (h : isOperand [] trees = true) :
    alternatives? leaf trees =
      (factor? leaf (trees.map fun tree => ⟨.part, tree, tree.inside? leaf⟩)).map
        fun factor => [[factor]] := by
  rw [alternatives?, if_neg (by simp [hquery]), marks?_of_isOperand h, Option.bind_some,
    sum?_of_parts]
  intro mark hmark
  obtain ⟨tree, -, rfl⟩ := List.mem_map.1 hmark
  rfl

theorem operand?_token (role : Role) (token : Token) (inside : Option (Expr α))
    (rest : List (Mark α)) :
    operand? leaf (⟨role, .token token, inside⟩ :: rest) =
      (leaf (.token token :: rest.map Mark.tree)).map .atom := by
  cases rest <;> rfl

/-- An operand that is a group says what stands in it. -/
theorem operand?_group (role : Role) {parts : List Tree} {alternatives : List (List (Expr α))}
    (h : alternatives? leaf parts = some alternatives) :
    operand? leaf [⟨role, .group parts, Tree.inside? leaf (.group parts)⟩] =
      some (.ofAlternatives alternatives) := by
  have hquery := (alternatives?_eq_some.1 h).2.1
  rw [operand?, if_neg (by simp [hquery]), Tree.inside?_group, h, Option.map_some]

/-- An operand that starts with a token and that `leaf` knows is an atom. -/
theorem alternatives?_atom {token : Token} {rest : List Tree} {value : α}
    (hkeyword : (Tree.token token).keyword? = none) (h : isOperand [] (.token token :: rest) = true)
    (hleaf : leaf (.token token :: rest) = some value) :
    alternatives? leaf (.token token :: rest) = some [[.atom value]] := by
  have hquery : isQuery (.token token :: rest) = false := by simp [isQuery, hkeyword]
  rw [alternatives?_of_isOperand hquery h, List.map_cons, factor?, if_neg (by simp [hkeyword])]
  have htrees : (rest.map fun tree => (⟨.part, tree, tree.inside? leaf⟩ : Mark α)).map Mark.tree =
      rest := by simp [Function.comp_def]
  rw [operand?_token, htrees, hleaf]
  rfl

/-- A group is read in turn. -/
theorem alternatives?_group {parts : List Tree} {alternatives : List (List (Expr α))}
    (h : alternatives? leaf parts = some alternatives) :
    alternatives? leaf [.group parts] = some [[.ofAlternatives alternatives]] := by
  have hfactor := operand?_group .part h
  rw [alternatives?_of_isOperand rfl rfl, List.map_singleton, factor?,
    if_neg (by simp [Tree.keyword?]), hfactor]
  rfl

/-- A group behind `NOT` is negated. -/
theorem alternatives?_not {parts : List Tree} {alternatives : List (List (Expr α))}
    (h : alternatives? leaf parts = some alternatives) {word : List Char}
    (hword : keywordOf? (word.map Char.toLower) = some .not) :
    alternatives? leaf [.token (.word word), .group parts] =
      some [[.not (.ofAlternatives alternatives)]] := by
  have hfactor := operand?_group .part h
  have hkeyword : (Tree.token (.word word)).keyword? = some .not := hword
  have hoperand : isOperand [] [.token (.word word), .group parts] = true := by
    simp only [isOperand, hkeyword]
    rfl
  rw [alternatives?_of_isOperand (by simp [isQuery, hkeyword]) hoperand, List.map_cons,
    factor?, if_pos hkeyword, List.map_singleton, factor?, if_neg (by simp [Tree.keyword?]),
    hfactor]
  rfl

/-! ### Texts -/

/-- A text says these alternatives wherever an expression may stand, if it is set off from what
follows it. -/
def Reads (leaf : List Tree → Option α) (dialect : Dialect) (text : List Char)
    (alternatives : List (List (Expr α))) : Prop :=
  ∃ trees, Lexes dialect text (flattenAll trees) ∧ alternatives? leaf trees = some alternatives

theorem reading?_eq_some_iff {dialect : Dialect} {text : List Char}
    {alternatives : List (List (Expr α))} :
    reading? leaf dialect text = some alternatives ↔ Reads leaf dialect text alternatives := by
  unfold reading? Reads
  constructor
  · intro h
    obtain ⟨lexemes, hlexemes, h⟩ := Option.bind_eq_some_iff.1 h
    obtain ⟨trees, htrees, h⟩ := Option.bind_eq_some_iff.1 h
    rw [group?_eq_some_iff] at htrees
    exact ⟨trees, htrees ▸ lexemes?_eq_some_iff.1 hlexemes, h⟩
  · rintro ⟨trees, hlexes, h⟩
    rw [lexemes?_eq_some_iff.2 hlexes, Option.bind_some, group?_eq_some_iff.2 rfl,
      Option.bind_some, h]

namespace Reads

variable {dialect : Dialect} {text others : List Char} {first second : List (List (Expr α))}

theorem expression? (h : Reads leaf dialect text first) :
    Sql.expression? leaf dialect text = some (.ofAlternatives first) := by
  rw [Sql.expression?, reading?_eq_some_iff.2 h, Option.map_some]

theorem connective {word : List Char} (hword : Lexes dialect word [.token (.word word)])
    {trees rest : List Tree} (h : Lexes dialect text (flattenAll trees))
    (hothers : Lexes dialect others (flattenAll rest)) :
    Lexes dialect (text ++ ' ' :: (word ++ ' ' :: others))
      (flattenAll (trees ++ .token (.word word) :: rest)) := by
  have hboth := h.blank (hword.blank hothers)
  simpa using hboth

theorem or (h : Reads leaf dialect text first) (hothers : Reads leaf dialect others second) :
    Reads leaf dialect (text ++ (" OR ".toList ++ others)) (first ++ second) := by
  obtain ⟨trees, htrees, h⟩ := h
  obtain ⟨rest, hrest, hothers⟩ := hothers
  have hword : Lexes dialect ['O', 'R'] [.token (.word ['O', 'R'])] :=
    Lexes.keyword (by simp) (by decide)
  exact ⟨_, connective hword htrees hrest, alternatives?_or h hothers rfl⟩

theorem and (h : Reads leaf dialect text first) (hothers : Reads leaf dialect others second) :
    Reads leaf dialect (text ++ (" AND ".toList ++ others)) (glue first second) := by
  obtain ⟨trees, htrees, h⟩ := h
  obtain ⟨rest, hrest, hothers⟩ := hothers
  have hword : Lexes dialect ['A', 'N', 'D'] [.token (.word ['A', 'N', 'D'])] :=
    Lexes.keyword (by simp) (by decide)
  exact ⟨_, connective hword htrees hrest, alternatives?_and h hothers rfl⟩

theorem enclose (h : Reads leaf dialect text first) :
    Reads leaf dialect ("(".toList ++ (text ++ ")".toList)) [[.ofAlternatives first]] := by
  obtain ⟨trees, htrees, h⟩ := h
  refine ⟨[.group trees], ?_, alternatives?_group h⟩
  have henclosed := htrees.enclose
  simpa using henclosed

theorem negate (h : Reads leaf dialect text first) :
    Reads leaf dialect ("NOT (".toList ++ (text ++ ")".toList))
      [[.not (.ofAlternatives first)]] := by
  obtain ⟨trees, htrees, h⟩ := h
  refine ⟨[.token (.word ['N', 'O', 'T']), .group trees], ?_, alternatives?_not h rfl⟩
  have hword : Lexes dialect ['N', 'O', 'T'] [.token (.word ['N', 'O', 'T'])] :=
    Lexes.keyword (by simp) (by decide)
  have hboth := hword.blank htrees.enclose
  simpa using hboth

end Reads

end Criteria.Sql
