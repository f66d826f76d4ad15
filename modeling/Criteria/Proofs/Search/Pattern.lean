import Criteria.Proofs.Search.Wildcard
import Criteria.Proofs.Text.Pattern
import Criteria.Search.Leaf

/-!
# What wildcard patterns accept

The search index reads the wildcard patterns back: an asterisk is any text, a question mark any
character, and a backslash makes the character behind it stand for itself. Whatever is written
character by character is read character by character, so it is enough to know what becomes of one
character in front of others. A character of a text becomes itself, and a character of a `LIKE`
pattern becomes what it means there.

Only a query that says so ignores letter case.

* `wildcardPattern`, `acceptsWildcard` — how the index reads a pattern, and what a query then finds;
* `wildcardFrom_escapeWildcard`, `wildcardFrom_likeWildcard` — the two ways to write a character;
* `leaf_finds` — the operators find what they say.
-/

namespace Criteria.Search

/-! ### Reading patterns -/

/-- Reads a wildcard pattern. A backslash at the very end stands for itself. -/
def wildcardFrom : List Char → Pattern
  | [] => []
  | '\\' :: c :: rest => .char c :: wildcardFrom rest
  | c :: rest =>
    (if c = '*' then .anything else if c = '?' then .one .any else .char c) :: wildcardFrom rest

/-- How the index reads a wildcard pattern. -/
def wildcardPattern (wildcard : String) : Pattern := wildcardFrom wildcard.toList

/-- An escaped asterisk, both wildcards, and a backslash with nothing behind it. -/
example : wildcardPattern "\\*?*\\" = [.char '*', .one .any, .anything, .char '\\'] := by decide

/-- How the index compares letters, if `lower` does away with their case. -/
def compared (lower : Char → Char) (ignoreCase : Bool) : Char → Char :=
  if ignoreCase then lower else id

/-- Whether a query with a wildcard pattern finds a text. -/
def acceptsWildcard (lower : Char → Char) (ignoreCase : Bool) (wildcard subject : String) : Bool :=
  Pattern.accepts (compared lower ignoreCase) (wildcardPattern wildcard) subject.toList

/-- A `LIKE` pattern in which no character escapes another one. -/
def plainLike (pattern : String) : Pattern := pattern.toList.map likePiece

/-- Only a backslash has to do with the character behind it. -/
theorem wildcardFrom_cons {c : Char} {rest : List Char} (h : c ≠ '\\') :
    wildcardFrom (c :: rest) =
      (if c = '*' then .anything else if c = '?' then .one .any else .char c) ::
        wildcardFrom rest := by
  rw [wildcardFrom]
  rintro d others rfl -
  exact h rfl

/-! ### Two ways to write a character -/

theorem wildcardFrom_escapeWildcard (c : Char) (rest : List Char) :
    wildcardFrom (escapeWildcard c ++ rest) = .char c :: wildcardFrom rest := by
  unfold escapeWildcard
  split
  · rfl
  · next hplain =>
    simp only [isWildcard, Bool.or_eq_true, decide_eq_true_eq, not_or] at hplain
    obtain ⟨⟨hstar, hmark⟩, hbackslash⟩ := hplain
    rw [List.singleton_append, wildcardFrom_cons hbackslash, if_neg hstar, if_neg hmark]

theorem wildcardFrom_likeWildcard (c : Char) (rest : List Char) :
    wildcardFrom (likeWildcard c ++ rest) = likePiece c :: wildcardFrom rest := by
  unfold likeWildcard likePiece
  split
  · rfl
  · split
    · rfl
    · exact wildcardFrom_escapeWildcard c rest

theorem wildcardPattern_ofLike (pattern : String) :
    wildcardPattern (String.ofList (ofLike pattern.toList)) = plainLike pattern := by
  have hread := Pattern.read_flatMap wildcardFrom_likeWildcard pattern.toList []
  rw [List.append_nil, wildcardFrom, List.append_nil] at hread
  rw [wildcardPattern, String.toList_ofList, ofLike_eq_flatMap, hread, plainLike]

/-- An escaped text in front of the rest of a pattern. -/
theorem wildcardFrom_escapeWildcards (text rest : List Char) :
    wildcardFrom (escapeWildcards text ++ rest) = Pattern.literal text ++ wildcardFrom rest :=
  Pattern.read_flatMap wildcardFrom_escapeWildcard text rest

/-- The pattern behind an asterisk. -/
theorem wildcardFrom_anything (rest : List Char) :
    wildcardFrom ('*' :: rest) = .anything :: wildcardFrom rest :=
  wildcardFrom_cons (by decide)

theorem wildcardPattern_within (text : String) :
    wildcardPattern (String.ofList ('*' :: escapeWildcards text.toList ++ ['*'])) =
      .anything :: Pattern.literal text.toList ++ [.anything] := by
  rw [wildcardPattern, String.toList_ofList, List.cons_append, wildcardFrom_anything,
    wildcardFrom_escapeWildcards]
  rfl

theorem wildcardPattern_atEnd (text : String) :
    wildcardPattern (String.ofList ('*' :: escapeWildcards text.toList)) =
      .anything :: Pattern.literal text.toList := by
  rw [wildcardPattern, String.toList_ofList, wildcardFrom_anything,
    ← List.append_nil (escapeWildcards text.toList), wildcardFrom_escapeWildcards]
  exact congrArg (Piece.anything :: ·) (List.append_nil _)

/-! ### Leaves -/

/-- Letters that are compared as they are. -/
theorem map_compared_false (lower : Char → Char) (text : List Char) :
    text.map (compared lower false) = text :=
  List.map_id text

/-- A leaf becomes a query with a wildcard pattern on its field, with or without regard to letter
case, and the query finds the texts that a condition holds of. -/
def LeafFinds (lower : Char → Char) (field : Field) (op : Operator) (text : String)
    (ignoreCase : Bool) (condition : List Char → Prop) : Prop :=
  ∃ wildcard,
    leaf field op (.string text) = .ok (.wildcard field.reference wildcard ignoreCase) ∧
    ∀ subject, acceptsWildcard lower ignoreCase wildcard subject = true ↔ condition subject.toList

/-- **The operators on patterns and on parts of a text find what they say.** A `LIKE` pattern
becomes a wildcard pattern that finds the same texts, with or without regard to letter case as the
operator says. A text to be found anywhere or at the end becomes a wildcard pattern that finds
exactly the texts that have it there. -/
theorem leaf_finds (lower : Char → Char) (field : Field) (text : String) :
    LeafFinds lower field .like text false
        (fun subject => Pattern.accepts id (plainLike text) subject = true) ∧
      LeafFinds lower field .ilike text true
        (fun subject => Pattern.accepts lower (plainLike text) subject = true) ∧
      (field.kind ≠ .array →
        LeafFinds lower field .contains text false (fun subject => text.toList <:+: subject)) ∧
      LeafFinds lower field .endsWith text false (fun subject => text.toList <:+ subject) := by
  refine ⟨⟨_, rfl, fun subject => ?like⟩, ⟨_, rfl, fun subject => ?ilike⟩,
    fun hfield => ⟨_, if_neg hfield, fun subject => ?within⟩, ⟨_, rfl, fun subject => ?atEnd⟩⟩
  case like =>
    rw [acceptsWildcard, wildcardPattern_ofLike]
    rfl
  case ilike =>
    rw [acceptsWildcard, wildcardPattern_ofLike]
    rfl
  case within =>
    rw [acceptsWildcard, wildcardPattern_within, Pattern.accepts_within_iff, map_compared_false,
      map_compared_false]
  case atEnd =>
    rw [acceptsWildcard, wildcardPattern_atEnd, Pattern.accepts_atEnd_iff, map_compared_false,
      map_compared_false]

/-- A text of nothing but characters with a meaning in one of the two kinds of pattern. -/
theorem leaf_finds_metacharacters :
    let field : Field := .declare "name" .string
    let text := "a*_?\\%"
    let within := "*a\\*_\\?\\\\%*"
    let pattern := "a\\*?\\?\\\\*"
    field.kind ≠ .array ∧
      leaf field .contains (.string text) = .ok (.wildcard field.reference within false) ∧
      (∀ subject, acceptsWildcard Char.toLower false within subject = true ↔
        text.toList <:+: subject.toList) ∧
      leaf field .ilike (.string text) = .ok (.wildcard field.reference pattern true) ∧
      (∀ subject, acceptsWildcard Char.toLower true pattern subject = true ↔
        Pattern.accepts Char.toLower (plainLike text) subject.toList = true) ∧
      acceptsWildcard Char.toLower true pattern "A*b?\\cd" = true ∧
      acceptsWildcard Char.toLower false within "A*b?\\cd" = false := by
  intro field text within pattern
  have hkind : field.kind ≠ .array := by decide
  obtain ⟨-, ⟨like, hlike, hlikes⟩, hcontains, -⟩ := leaf_finds Char.toLower field text
  obtain ⟨found, hfound, hfinds⟩ := hcontains hkind
  have hwithin : leaf field .contains (.string text) =
      .ok (.wildcard field.reference within false) := by
    subst text within
    rfl
  have hpattern : leaf field .ilike (.string text) =
      .ok (.wildcard field.reference pattern true) := by
    subst text pattern
    rfl
  obtain rfl : found = within :=
    (Query.wildcard.inj (Except.ok.inj (hfound.symm.trans hwithin))).2.1
  obtain rfl : like = pattern :=
    (Query.wildcard.inj (Except.ok.inj (hlike.symm.trans hpattern))).2.1
  exact ⟨hkind, hwithin, hfinds, hpattern, hlikes, by decide, by decide⟩

end Criteria.Search
